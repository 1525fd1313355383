import TriadSim.Library.Interleaving
import TriadSim.Netconf.Commit
import TriadSim.Snmp.Set

/-!
# What the programs of the planes can do

For the programs of the router, of the data-tree editor and of the SNMP agent: which
accesses they can make at all, whatever the others do in the meantime, and which
assertions of a thread they carry through.
-/

namespace TriadSim

open Datatree Go Library Router Store

/-- The accesses of a program that only looks at the store and keeps the memoized
bindings. -/
def Request.Reads : Request → Prop
  | .ctxErr | .values _ | .generation _ | .cachedBindings _ _ | .cacheBindings _ => True
  | _ => False

/-- A reading access changes the memoized bindings at most. -/
theorem handle_of_reads {json : Json} {request : Request} (hReads : request.Reads)
    (opts : Options) (env : CallEnv) (machine : Machine json) :
    ∃ bindCache, (Machine.handle opts env request machine).2 = { machine with bindCache } := by
  cases request with
  | ctxErr | values ds | generation ds | cachedBindings ds generation =>
    exact ⟨machine.bindCache, rfl⟩
  | cacheBindings cache => exact ⟨some cache, rfl⟩
  | _ => exact hReads.elim

/-- The accesses of commits and discards. -/
def Request.Commits : Request → Prop
  | .issued _ | .returned _ _ | .snapshot | .pending | .arm _ _ | .confirm
  | .mutate .commit | .mutate .rollback | .commitConfirmed _ => True
  | _ => False

/-! ## Accesses -/

section Only

variable {α β : Type} {calls : Request → Prop} {locks : Mutex → Prop}
    {returns : Except Err β → Prop}

theorem only_checkCtx {next : Prog (Except Err β)}
    (hReads : ∀ request, request.Reads → calls request)
    (hNext : next.Only calls locks returns) (hError : ∀ err, returns (.error err)) :
    (checkCtx next).Only calls locks returns := by
  refine ⟨hReads _ trivial, ?_⟩
  intro response
  cases response with
  | none => exact hNext
  | some err => exact hError err

variable {next : α → Prog (Except Err β)}

theorem only_andThen (middle : Except Err α → Prop) {step : Prog (Except Err α)}
    (hStep : step.Only calls locks middle)
    (hNext : ∀ value, middle (.ok value) → (next value).Only calls locks returns)
    (hError : ∀ err, returns (.error err)) : (andThen step next).Only calls locks returns := by
  refine hStep.bind ?_
  intro result hResult
  cases result with
  | error err => exact hError err
  | ok value => exact hNext value hResult

/-- A step that is a plain value. -/
theorem only_andThen_ret {result : Except Err α}
    (hNext : ∀ value, result = .ok value → (next value).Only calls locks returns)
    (hError : ∀ err, returns (.error err)) :
    (andThen (.ret result) next).Only calls locks returns :=
  only_andThen (fun found => result = found) rfl hNext hError

theorem only_mapError {f : Err → Err} {program : Prog (Except Err β)}
    (hProgram : program.Only calls locks returns) (hError : ∀ err, returns (.error err)) :
    (mapError f program).Only calls locks returns := by
  refine hProgram.bind ?_
  intro result hResult
  cases result with
  | error err => exact hError (f err)
  | ok value => exact hResult

theorem only_ask {request : Request} {returns : request.Response → Prop}
    (hRequest : calls request) (hReturns : ∀ response, returns response) :
    (ask request).Only calls locks returns :=
  ⟨hRequest, hReturns⟩

variable {r : Router} {ds : Datastore} (hReads : ∀ request, request.Reads → calls request)
include hReads

/-- A described datastore is the description of some content. -/
theorem only_values : (r.values ds).Only calls locks fun result =>
    ∀ results, result = .ok results → ∃ content, r.describeAll content = .ok results := by
  refine only_checkCtx hReads (only_andThen (fun _ => True) ?_ ?_ ?_) ?_
  · exact only_ask (hReads _ trivial) fun _ => trivial
  · intro content _ results hResults
    exact ⟨content, hResults⟩
  · intro err results hResults
    cases hResults
  · intro err results hResults
    cases hResults

theorem only_validateProg {content : Values} :
    (r.validateProg content).Only calls locks fun result =>
      ∀ done, result = .ok done → r.validate none content = .ok () :=
  ⟨hReads _ trivial, fun _ _ hValid => validate_eq_ok hValid⟩

/-- A batch reaches the store only after every leaf of it has been converted. -/
theorem only_apply {batch : Std.ExtTreeMap GoString GoValue} {deletions : List GoString}
    (hApply : ∀ converted, r.convertAll batch = .ok converted →
      calls (.mutate (.apply ds converted deletions))) :
    (r.apply ds batch deletions).Only calls locks fun _ => True := by
  refine only_checkCtx hReads (only_andThen_ret ?_ fun _ => trivial) fun _ => trivial
  intro converted hConvert
  exact only_ask (hApply converted hConvert) fun _ => trivial

theorem only_transaction {body : Prog (Except Err β)} (hLock : locks .transaction)
    (hBody : body.Only calls locks returns) (hError : ∀ err, returns (.error err)) :
    (transaction body).Only calls locks returns :=
  only_checkCtx hReads (hBody.locked hLock) hError

section Edit

variable {req : EditRequest}
  (hApply : ∀ content edited batch, Accepts r req content edited →
    r.convertAll ((changedLeaves content edited.proposed).map fun _ value => .leaf value) =
      .ok batch →
    calls (.mutate (.apply ds batch (droppedPaths content edited.proposed))))

include hApply

/-- The body of an edit, with what is known of its batch when it is written. -/
theorem only_applyBody : (applyBody r ds req).Only calls locks fun _ => True := by
  refine only_andThen _ (only_mapError (only_values hReads) ?_) ?_ fun _ => trivial
  · intro err results hResults
    cases hResults
  · intro results hRead
    obtain ⟨content, hDescribe⟩ := hRead results rfl
    obtain ⟨hOriginal, _⟩ := editorOf_spec hDescribe
    refine only_andThen_ret ?_ fun _ => trivial
    intro edited hPropose
    refine only_andThen _ (only_mapError (only_validateProg hReads) ?_) ?_ fun _ => trivial
    · intro err done hDone
      cases hDone
    · intro done hValidated
      rw [hOriginal]
      refine only_mapError (only_apply hReads ?_) fun _ => trivial
      intro batch hConvert
      exact hApply content edited batch
        ⟨⟨results, hDescribe, hPropose⟩, hValidated done rfl⟩ hConvert

variable (hLock : locks .transaction)

include hLock

/-- An edit as a whole. -/
theorem only_edit : (Datatree.apply r ds req).Only calls locks fun _ => True :=
  only_checkCtx hReads (only_transaction hReads hLock (only_applyBody hReads hApply)
    fun _ => trivial) fun _ => trivial

theorem Netconf.only_editConfig :
    (Netconf.editConfig r ds req).Only calls locks fun _ => True := by
  unfold Netconf.editConfig
  split
  · trivial
  · exact only_mapError (only_edit hReads hApply hLock) fun _ => trivial

end Edit

theorem only_bindings : (r.bindings ds).Only calls locks fun _ => True := by
  refine only_checkCtx hReads (only_andThen (fun _ => True)
    (only_ask (hReads _ trivial) fun _ => trivial) ?_ fun _ => trivial) fun _ => trivial
  intro generation _
  refine ⟨hReads _ trivial, ?_⟩
  intro response
  cases response with
  | some bindings => trivial
  | none =>
    refine only_andThen (fun _ => True)
      (only_checkCtx hReads (only_ask (hReads _ trivial) fun _ => trivial) fun _ => trivial)
      ?_ fun _ => trivial
    intro values _
    refine only_andThen_ret ?_ fun _ => trivial
    intro bindings _
    exact ⟨hReads _ trivial, fun _ => trivial⟩

theorem only_index : (Snmp.index r).Only calls locks fun _ => True :=
  only_andThen _ (only_bindings hReads) (fun _ _ => trivial) fun _ => trivial

end Only

/-! ### Commits -/

namespace Netconf

section Only

variable {calls : Request → Prop} {locks : Mutex → Prop}
  (hCommits : ∀ request, request.Commits → calls request)
include hCommits

theorem only_discardChanges : discardChanges.Only calls locks fun _ => True :=
  only_mapError (only_ask (hCommits _ trivial) fun _ => trivial) fun _ => trivial

theorem only_reported {confirmed : Bool} {body : Nat → Prog (Except Err Unit)}
    (hBody : ∀ rpc, (body rpc).Only calls locks fun _ => True) :
    (reported confirmed body).Only calls locks fun _ => True := by
  refine ⟨hCommits _ trivial, ?_⟩
  intro rpc
  refine (hBody rpc).bind ?_
  intro result _
  exact ⟨hCommits _ trivial, fun _ => trivial⟩

variable (hLock : locks .confirmed)
include hLock

theorem only_commit : commit.Only calls locks fun _ => True := by
  refine only_reported hCommits ?_
  intro _
  refine only_andThen (fun _ => True) (only_mapError
    (only_ask (hCommits _ trivial) fun _ => trivial) fun _ => trivial) ?_ fun _ => trivial
  intro _ _
  have hConfirm : confirm.Only calls locks fun _ => True :=
    Program.Only.locked hLock (only_ask (hCommits _ trivial) fun _ => trivial)
  exact hConfirm.bind fun _ _ => trivial

variable {sessionID : UInt32}

theorem only_confirmedApply {rollback : Rollback} :
    (confirmedApply sessionID rollback).Only calls locks fun _ => True := by
  refine Program.Only.locked hLock ⟨hCommits _ trivial, ?_⟩
  intro pend
  dsimp only
  split
  · trivial
  · refine only_andThen (fun _ => True) (only_mapError
      (only_ask (hCommits _ trivial) fun _ => trivial) fun _ => trivial) ?_ fun _ => trivial
    intro _ _
    refine ⟨hCommits _ trivial, ?_⟩
    intro again
    cases again with
    | some pend => trivial
    | none => exact ⟨hCommits _ trivial, fun _ => trivial⟩

theorem only_commitConfirmed :
    (commitConfirmed sessionID).Only calls locks fun _ => True := by
  refine only_reported hCommits ?_
  intro rpc
  refine only_andThen (fun _ => True) (only_mapError
    (only_ask (hCommits _ trivial) fun _ => trivial) fun _ => trivial) ?_ fun _ => trivial
  intro snapshot _
  exact only_confirmedApply hCommits hLock

end Only

end Netconf

/-! ## The batch of a SET -/

namespace Snmp

/-- What the loop over the variable bindings has checked: the changes convert to
themselves, and unless there are none the content with them is valid. -/
structure Checked (r : Router) (content changed : Values) : Prop where
  settled : ∀ (path : GoString) value, changed[path]? = some value →
    ∃ converted, r.convert path (.leaf value) = .ok converted ∧ converted.value = value
  valid : changed = ∅ ∨ r.validate none (content ∪ changed) = .ok ()

variable {r : Router} {content : Values}

variable {changed : Values} {converted : Result} {index : Std.ExtTreeMap GoString Binding}
    {varbind : VarBind}

/-- The changes pass a second conversion as they are. -/
theorem Checked.stable (hChecked : Checked r content changed) (path : GoString) (value : Leaf)
    (converted : Result) (hChanged : changed[path]? = some value)
    (hConvert : r.convert path (.leaf value) = .ok converted) : converted.value = value := by
  obtain ⟨settled, hSettled, hValue⟩ := hChecked.settled path value hChanged
  rw [hConvert, Except.ok.injEq] at hSettled
  rw [hSettled, hValue]

theorem Checked.empty : Checked r content ∅ :=
  ⟨fun path value hValue => by simp at hValue, Or.inl rfl⟩

/-- One more binding that converts and whose proposal is valid. -/
theorem Checked.insert {path : GoString} {value : GoValue} (hChecked : Checked r content changed)
    (hConvert : r.convert path value = .ok converted)
    (hValid : r.validate none ((content ∪ changed).insert path converted.value) = .ok ()) :
    Checked r content (changed.insert path converted.value) := by
  refine ⟨?_, Or.inr ?_⟩
  · intro other found hFound
    rw [Std.ExtTreeMap.getElem?_insert] at hFound
    split at hFound
    · next hSame =>
      cases hFound
      rw [← Std.LawfulEqCmp.compare_eq_iff_eq.mp hSame]
      exact ⟨converted, convert_of_convert_eq_ok hConvert, rfl⟩
    · exact hChecked.settled other found hFound
  · rw [FinMap.union_insert]
    exact hValid

/-- A binding that passes its checks has been converted. -/
theorem checkVarBind_eq_ok (hCheck : checkVarBind r index varbind = .ok converted) :
    ∃ value, r.convert converted.path value = .ok converted := by
  unfold checkVarBind at hCheck
  split at hCheck
  · cases hCheck
  · next binding _ =>
    split at hCheck
    · cases hCheck
    · split at hCheck
      · cases hCheck
      · next value _ =>
        split at hCheck
        · cases hCheck
        · next found hConvert =>
          cases hCheck
          exact ⟨value, by rw [path_of_convert_eq_ok hConvert]; exact hConvert⟩

/-- What the loop answers: the checked changes, or a status that is an error. -/
def CheckedResult (r : Router) (content : Values) : Except (Status × UInt8) Values → Prop
  | .ok changed => Checked r content changed
  | .error failure => failure.1 ≠ .noError

theorem convertStatus_ne_noError (err : Err) : convertStatus err ≠ .noError := by
  unfold convertStatus
  repeat' split
  all_goals decide

theorem ne_noError_of_checkVarBind_eq_error {status : Status}
    (hCheck : checkVarBind r index varbind = .error status) :
    status ≠ .noError := by
  unfold checkVarBind at hCheck
  split at hCheck
  · cases hCheck
    decide
  · split at hCheck
    · cases hCheck
      decide
    · split at hCheck
      · cases hCheck
        decide
      · split at hCheck
        · cases hCheck
          exact convertStatus_ne_noError _
        · cases hCheck

section Only

variable {calls : Request → Prop} {locks : Mutex → Prop}

theorem only_orGenErr {α : Type} {step : Prog (Except Err α)} {next : α → Prog Reply}
    {middle : Except Err α → Prop} (hStep : step.Only calls locks middle)
    (hNext : ∀ value, middle (.ok value) → (next value).Only calls locks fun _ => True) :
    (orGenErr step next).Only calls locks fun _ => True := by
  refine hStep.bind ?_
  intro result hResult
  cases result with
  | error err => trivial
  | ok value => exact hNext value hResult

variable {r : Router} (hReads : ∀ request, request.Reads → calls request)
include hReads

/-- The loop over the bindings, by induction on what is left of them. -/
theorem only_checkVarBinds {content : Values} (index : Std.ExtTreeMap GoString Binding)
    (number : Nat) (varbinds : List VarBind) (changed : Values)
    (hChecked : Checked r content changed) :
    (checkVarBinds r index number varbinds (content ∪ changed) changed).Only calls locks
      (CheckedResult r content) := by
  induction varbinds generalizing number changed with
  | nil => exact hChecked
  | cons varbind rest ih =>
    rw [checkVarBinds]
    cases hCheck : checkVarBind r index varbind with
    | error status => exact ne_noError_of_checkVarBind_eq_error hCheck
    | ok converted =>
      obtain ⟨value, hConvert⟩ := checkVarBind_eq_ok hCheck
      refine (only_validateProg hReads).bind ?_
      intro result hValidated
      cases result with
      | error err =>
        show Status.inconsistentValue ≠ .noError
        decide
      | ok done =>
        have hNext := hChecked.insert hConvert (hValidated done rfl)
        rw [← FinMap.union_insert]
        exact ih (number + 1) _ hNext

variable {varbinds : List VarBind}
  (hApply : ∀ content changed batch, Checked r content changed →
    r.convertAll (changed.map fun _ value => .leaf value) = .ok batch →
    calls (.mutate (.apply .running batch [])))

include hApply

/-- The body of a SET, with what is known of its batch when it is written. -/
theorem only_applySet : (applySet r varbinds).Only calls locks fun _ => True := by
  refine only_orGenErr (only_values hReads) ?_
  intro results hRead
  obtain ⟨content, hDescribe⟩ := hRead results rfl
  obtain ⟨hContent, _⟩ := editorOf_spec hDescribe
  refine only_orGenErr (only_index hReads) ?_
  intro found _
  rw [show (results.map fun _ result => result.value) = content ∪ ∅ by
    rw [FinMap.union_empty]; exact hContent]
  refine (only_checkVarBinds hReads found 1 varbinds ∅ Checked.empty).bind ?_
  intro checked hChecked
  cases checked with
  | error failure => trivial
  | ok changed =>
    refine only_orGenErr (only_apply hReads ?_) ?_
    · intro batch hConvert
      exact hApply content changed batch hChecked hConvert
    · intro _ _
      exact only_orGenErr (only_index hReads) fun _ _ => trivial

/-- A SET as a whole. -/
theorem only_set (hLock : locks .transaction) :
    (Snmp.set r varbinds).Only calls locks fun _ => True := by
  have hBody : ((applySet r varbinds).bind fun reply => .ret (.ok reply) :
      Prog (Except Err Reply)).Only calls locks fun _ => True :=
    (only_applySet hReads hApply).bind fun _ _ => trivial
  exact only_orGenErr (only_transaction hReads hLock hBody fun _ => trivial) fun _ _ => trivial

end Only

end Snmp

/-! ## Assertions -/

/-- The world of the threads of a process, and its calls. -/
abbrev MachineWorld (ι : Type) (json : Json) :=
  World ι Mutex Request Request.Response (Machine json)

abbrev MachineEvent (ι : Type) (json : Json) :=
  Event ι Request Request.Response (Machine json)

abbrev MachineContract (ι : Type) (json : Json) (α : Type) :=
  Contract ι Mutex Request Request.Response (Machine json) α

section Triples

variable {ι : Type} {json : Json} {α β γ : Type}

/-- An assertion of a thread that neither the others nor its own reads disturb. -/
structure Steady (opts : Options) (c : MachineContract ι json γ) (thread : ι)
    (pre : MachineWorld ι json → Prop) : Prop where
  rely : ∀ world now, pre world → c.rely thread world now → pre now
  reads : ∀ world env request, request.Reads → c.inv world → pre world →
    c.guarantee world (callEvent (Machine.handle opts) thread env request world.state) ∧
      pre (world.record (callEvent (Machine.handle opts) thread env request world.state))

variable {opts : Options} {c : MachineContract ι json γ} {thread : ι}
  {pre : MachineWorld ι json → Prop} {post : Except Err β → MachineWorld ι json → Prop}

/-- The answer of a read is that of some world where the assertion holds. -/
theorem triple_ask (hSteady : Steady opts c thread pre) {request : Request}
    (hReads : request.Reads) :
    Contract.Triple (Machine.handle opts) c thread pre (ask request) fun response world =>
      pre world ∧ ∃ env now, pre now ∧
        response = (Machine.handle opts env request now.state).1 := by
  intro world hPre now hInv hRely env _
  have hNow := hSteady.rely world now hPre hRely
  obtain ⟨hGuarantee, hAfter⟩ := hSteady.reads now env request hReads hInv hNow
  exact ⟨hGuarantee, hAfter, env, now, hNow, rfl⟩

/-- A program that only reads. -/
theorem triple_of_only (hSteady : Steady opts c thread pre) {program : Prog α}
    {returns : α → Prop} (hOnly : program.Only Request.Reads (fun _ => False) returns) :
    Contract.Triple (Machine.handle opts) c thread pre program fun value world =>
      pre world ∧ returns value := by
  induction program with
  | ret value => exact fun _ hPre => ⟨hPre, hOnly⟩
  | call request next ih =>
    intro world hPre now hInv hRely env _
    obtain ⟨hGuarantee, hAfter⟩ := hSteady.reads now env request hOnly.1 hInv
      (hSteady.rely world now hPre hRely)
    exact ⟨hGuarantee, ih _ (hOnly.2 _) _ hAfter⟩
  | acquire lock next | release lock next => exact hOnly.1.elim

theorem triple_checkCtx (hSteady : Steady opts c thread pre) {next : Prog (Except Err β)}
    (hNext : Contract.Triple (Machine.handle opts) c thread pre next post)
    (hError : ∀ err world, pre world → post (.error err) world) :
    Contract.Triple (Machine.handle opts) c thread pre (checkCtx next) post := by
  intro world hPre now hInv hRely env _
  obtain ⟨hGuarantee, hAfter⟩ := hSteady.reads now env .ctxErr trivial hInv
    (hSteady.rely world now hPre hRely)
  refine ⟨hGuarantee, ?_⟩
  generalize hCtx : (Machine.handle opts env .ctxErr now.state).1 = ctx
  cases ctx with
  | some err => exact hError err _ hAfter
  | none => exact hNext _ hAfter

variable {step : Prog (Except Err α)} {middle : Except Err α → MachineWorld ι json → Prop}

theorem triple_andThen {next : α → Prog (Except Err β)}
    (hStep : Contract.Triple (Machine.handle opts) c thread pre step middle)
    (hNext : ∀ value, Contract.Triple (Machine.handle opts) c thread (middle (.ok value))
      (next value) post) (hError : ∀ err world, middle (.error err) world → post (.error err) world)
    :
    Contract.Triple (Machine.handle opts) c thread pre (andThen step next) post := by
  refine hStep.bind ?_
  intro result
  cases result with
  | error err => exact fun world hMiddle => hError err world hMiddle
  | ok value => exact hNext value

theorem triple_mapError {f : Err → Err} {program : Prog (Except Err β)}
    (hProgram : Contract.Triple (Machine.handle opts) c thread pre program post)
    (hError : ∀ err world, post (.error err) world → post (.error (f err)) world) :
    Contract.Triple (Machine.handle opts) c thread pre (mapError f program) post := by
  refine hProgram.bind ?_
  intro result
  cases result with
  | error err => exact fun world hPost => hError err world hPost
  | ok value => exact fun _ hPost => hPost

theorem triple_orGenErr {next : α → Prog Snmp.Reply}
    {answer : Snmp.Reply → MachineWorld ι json → Prop}
    (hStep : Contract.Triple (Machine.handle opts) c thread pre step middle)
    (hNext : ∀ value, Contract.Triple (Machine.handle opts) c thread (middle (.ok value))
      (next value) answer) (hError : ∀ world, answer (.failure .genErr 0) world) :
    Contract.Triple (Machine.handle opts) c thread pre (Snmp.orGenErr step next) answer := by
  refine hStep.bind ?_
  intro result
  cases result with
  | error err => exact fun world _ => hError world
  | ok value => exact hNext value

/-- The read of a whole datastore through the router, for a thread that knows what the
datastore holds. -/
theorem triple_values (hSteady : Steady opts c thread pre) {r : Router} {ds : Datastore}
    {content : Except Err Values}
    (hContent : ∀ world, pre world → world.state.memory.datastore ds = content) :
    Contract.Triple (Machine.handle opts) c thread pre (r.values ds) fun result world =>
      pre world ∧ ∀ results, result = .ok results →
        ∃ values, content = .ok values ∧ r.describeAll values = .ok results := by
  refine triple_checkCtx hSteady (triple_andThen (triple_ask hSteady trivial) ?_ ?_) ?_
  · rintro values world ⟨hPre, env, now, hNow, hResponse⟩
    refine ⟨hPre, fun results hResults => ⟨values, ?_, hResults⟩⟩
    rw [← hContent now hNow]
    exact Memory.datastore_of_values_eq_ok hResponse.symm
  · rintro err world ⟨hPre, _⟩
    exact ⟨hPre, fun results hResults => (by cases hResults)⟩
  · intro err world hPre
    exact ⟨hPre, fun results hResults => (by cases hResults)⟩

end Triples

end TriadSim
