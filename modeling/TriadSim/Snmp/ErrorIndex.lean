import TriadSim.Snmp.Set

/-!
# The error index of a rejected SET

The variable bindings of a SET are processed in order, each on the proposal that the earlier ones
have left, and the first failure is reported with its position.  The position is reported in eight
bits, so beyond the 255th variable binding it is another one.  The main result is
`error_index_is_position_iff`.
-/

namespace TriadSim
namespace Snmp

open Go Library Router Store

variable {json : Json} {r : Router} {found : Std.ExtTreeMap GoString Binding}

/-- A SET once running and the index have been read. -/
def setVarBinds (r : Router) (found : Std.ExtTreeMap GoString Binding) (proposed : Values)
    (varbinds : List VarBind) : Prog Reply :=
  (checkVarBinds r found 1 varbinds proposed ∅).bind fun
    | .error (status, number) => .ret (.failure status number)
    | .ok changed =>
      orGenErr (r.apply .running (changed.map fun _ value => .leaf value) []) fun () =>
        orGenErr (index r) fun written => .ret ⟨varbinds.map (echo written), .noError, 0⟩

theorem applySet_eq (r : Router) (varbinds : List VarBind) :
    applySet r varbinds = orGenErr (r.values .running) fun results =>
      orGenErr (index r) fun found =>
        setVarBinds r found (results.map fun _ result => result.value) varbinds :=
  rfl

/-- What one variable binding makes of the proposal, or the status of its failure. -/
def process (r : Router) (found : Std.ExtTreeMap GoString Binding) (ctx : Option Err)
    (proposed : Values) (varbind : VarBind) : Except Status Values :=
  match checkVarBind r found varbind with
  | .error status => .error status
  | .ok converted =>
    match r.validate ctx (proposed.insert converted.path converted.value) with
    | .error _ => .error .inconsistentValue
    | .ok () => .ok (proposed.insert converted.path converted.value)

/-- What variable bindings make of it, one after another; `ctx` is the state of the context at
each of them. -/
def processAll (r : Router) (found : Std.ExtTreeMap GoString Binding) :
    (Nat → Option Err) → Values → List VarBind → Except Status Values
  | _, proposed, [] => .ok proposed
  | ctx, proposed, varbind :: rest =>
    match process r found (ctx 0) proposed varbind with
    | .error status => .error status
    | .ok next => processAll r found (fun index => ctx (index + 1)) next rest

/-- The variable binding at a position is the first one to fail, with a status. -/
def FailsAt (r : Router) (found : Std.ExtTreeMap GoString Binding) (ctx : Nat → Option Err)
    (proposed : Values) (varbinds : List VarBind) (position : Nat) (status : Status) : Prop :=
  ∃ middle varbind, processAll r found ctx proposed (varbinds.take position) = .ok middle ∧
    varbinds[position]? = some varbind ∧
    process r found (ctx position) middle varbind = .error status

section Loop

variable {opts : Options} {machine : Machine json} {env : Nat → CallEnv} {proposed : Values}

/-- One round of the loop, from the validation on. -/
theorem exec_checkVarBinds_cons {varbind : VarBind} {converted : Result}
    (hCheck : checkVarBind r found varbind = .ok converted) (number : Nat) (rest : List VarBind)
    (changed : Values) :
    (checkVarBinds r found number (varbind :: rest) proposed changed).exec (Machine.handle opts) env
        machine =
      Program.exec (Machine.handle opts)
        (match r.validate (env 0).ctx (proposed.insert converted.path converted.value) with
          | .error _ => .ret (.error (.inconsistentValue, UInt8.ofNat number))
          | .ok () => checkVarBinds r found (number + 1) rest
              (proposed.insert converted.path converted.value)
              (changed.insert converted.path converted.value))
        (Program.later env) machine := by
  rw [checkVarBinds, hCheck]
  rfl

/-- The loop reports the first failure, by induction on what is left of the bindings. -/
theorem exec_checkVarBinds_of_failsAt (varbinds : List VarBind) {position : Nat} {status : Status}
    (hFails : FailsAt r found (fun index => (env index).ctx) proposed varbinds position status)
    (number : Nat) (changed : Values) :
    ((checkVarBinds r found number varbinds proposed changed).exec (Machine.handle opts) env
      machine).1 = .error (status, UInt8.ofNat (number + position)) := by
  induction varbinds generalizing env proposed position number changed with
  | nil =>
    obtain ⟨_, _, _, hVarbind, _⟩ := hFails
    cases hVarbind
  | cons first rest ih =>
    obtain ⟨middle, varbind, hBefore, hVarbind, hProcess⟩ := hFails
    cases hCheck : checkVarBind r found first with
    | error failed =>
      cases position with
      | zero =>
        cases hBefore
        cases hVarbind
        rw [process, hCheck] at hProcess
        cases hProcess
        rw [checkVarBinds, hCheck]
        rfl
      | succ position =>
        simp [processAll, process, hCheck] at hBefore
    | ok converted =>
      rw [exec_checkVarBinds_cons hCheck]
      cases hValid : r.validate (env 0).ctx
          (proposed.insert converted.path converted.value) with
      | error err =>
        cases position with
        | zero =>
          cases hBefore
          cases hVarbind
          simp only [process, hCheck, hValid] at hProcess
          cases hProcess
          rfl
        | succ position =>
          simp [processAll, process, hCheck, hValid] at hBefore
      | ok done =>
        cases position with
        | zero =>
          cases hBefore
          cases hVarbind
          simp [process, hCheck, hValid] at hProcess
        | succ position =>
          simp only [List.take_succ_cons, processAll, process, hCheck, hValid] at hBefore
          rw [← Nat.add_assoc, Nat.add_right_comm]
          exact ih ⟨middle, varbind, hBefore, hVarbind, hProcess⟩ (number + 1) _

/-- The reply to a SET whose first failure is at a position. -/
theorem reply_of_failsAt {varbinds : List VarBind} {position : Nat} {status : Status}
    (hFails : FailsAt r found (fun index => (env index).ctx) proposed varbinds position status) :
    ((setVarBinds r found proposed varbinds).run opts env machine).1 =
      .failure status (UInt8.ofNat (1 + position)) := by
  have hLoop : ((checkVarBinds r found 1 varbinds proposed ∅).exec (Machine.handle opts) env
      machine).1 = .error (status, UInt8.ofNat (1 + position)) :=
    exec_checkVarBinds_of_failsAt varbinds hFails 1 ∅
  refine (congrArg Prod.fst (Program.exec_bind (Machine.handle opts) _ _ env machine)).trans ?_
  rw [hLoop]
  rfl

end Loop

/-- A SET that is rejected because of a variable binding is answered with the status of its
failure, and with its position exactly if that is at most 255. -/
theorem error_index_is_position_iff (opts : Options) (r : Router)
    (found : Std.ExtTreeMap GoString Binding) (machine : Machine json) (env : Nat → CallEnv)
    (proposed : Values) (varbinds : List VarBind) (position : Nat) (status : Status)
    (hFails : FailsAt r found (fun index => (env index).ctx) proposed varbinds position status) :
    ((setVarBinds r found proposed varbinds).run opts env machine).1.status = status ∧
      (((setVarBinds r found proposed varbinds).run opts env machine).1.index.toNat =
        position + 1 ↔ position + 1 ≤ 255) := by
  rw [reply_of_failsAt hFails, Reply.failure, UInt8.toNat_ofNat']
  exact ⟨rfl, by omega⟩

/-- A SET of the system name to the value it has. -/
def setName : VarBind :=
  ⟨"1.3.6.1.2.1.1.5.0", .bytes (text "edge")⟩

/-- A SET of an object that does not exist. -/
def setNothing : VarBind :=
  ⟨"1.3.6.1.2.1.1.9.0", .bytes (text "edge")⟩

/-- The index of the content with a name for the system. -/
def nameIndex : Std.ExtTreeMap GoString Binding :=
  pduIndex ((defaultRouter.bindingsOf Datatree.namedContent).toOption.getD [])

theorem process_setName :
    process defaultRouter nameIndex none Datatree.namedContent setName =
      .ok Datatree.namedContent := by
  have hChecked : (checkVarBind defaultRouter nameIndex setName).map (fun converted =>
      (converted.path, converted.value)) = .ok (text "system-info/name", .string "edge") := by
    decide +kernel
  have hValid : defaultRouter.validate none Datatree.namedContent = .ok () := by decide +kernel
  obtain ⟨converted, hCheck, hPair⟩ := map_eq_ok_iff.mp hChecked
  obtain ⟨hPath, hValue⟩ := Prod.mk.inj hPair
  have hSame : Datatree.namedContent.insert converted.path converted.value =
      Datatree.namedContent := by
    rw [hPath, hValue]
    exact FinMap.insert_insert_self ..
  simp only [process, hCheck, hSame, hValid]

/-- Names are set until the object that does not exist comes up. -/
theorem failsAt_setNothing (ctx : Nat → Option Err) (hLive : ∀ index, ctx index = none)
    (position : Nat) :
    FailsAt defaultRouter nameIndex ctx Datatree.namedContent
      (List.replicate position setName ++ [setNothing]) position .noCreation := by
  have hNames : processAll defaultRouter nameIndex ctx Datatree.namedContent
      (List.replicate position setName) = .ok Datatree.namedContent := by
    induction position generalizing ctx with
    | zero => rfl
    | succ position ih =>
      rw [List.replicate_succ, processAll, hLive, process_setName]
      exact ih _ fun index => hLive (index + 1)
  refine ⟨Datatree.namedContent, setNothing, ?_, ?_, ?_⟩
  · rwa [List.take_left' (List.length_replicate ..)]
  · rw [List.getElem?_append_right (by simp)]
    simp
  · rw [hLive]
    decide +kernel

/-- A SET of names and of that object, on the process with that content. -/
def setAfterNames (position : Nat) : Reply :=
  ((setVarBinds defaultRouter nameIndex Datatree.namedContent
    (List.replicate position setName ++ [setNothing])).run (defaultRouter.options [])
      (fun _ => CallEnv.quiet) (Datatree.machineWith Datatree.namedContent)).1

theorem index_setAfterNames (position : Nat) :
    (setAfterNames position).index = UInt8.ofNat (1 + position) := by
  rw [setAfterNames, reply_of_failsAt (failsAt_setNothing _ (fun _ => rfl) position)]
  rfl

theorem index_of_third_varbind_is_three : (setAfterNames 2).index.toNat = 3 :=
  (error_index_is_position_iff (defaultRouter.options []) defaultRouter nameIndex _ _ _ _ 2
    .noCreation (failsAt_setNothing _ (fun _ => rfl) 2)).2.mpr (by decide)

/-- The failure of the 256th variable binding is reported at the index 0. -/
theorem index_of_256th_varbind_is_zero :
    FailsAt defaultRouter nameIndex (fun _ => none) Datatree.namedContent
        (List.replicate 255 setName ++ [setNothing]) 255 .noCreation ∧
      (setAfterNames 255).index = 0 :=
  ⟨failsAt_setNothing _ (fun _ => rfl) 255, (index_setAfterNames 255).trans (by decide)⟩

end Snmp
end TriadSim
