import TriadSim.L2.Stp
import TriadSim.Library.Histories
import TriadSim.System.Domains

/-!
# What the switching programs can write

The programs of the switching tables read running and write or delete single leaves of it.  Each
lemma says where: below the entry that the program is about, and at the counters and the state
leaves that follow from it.  The main result is `vlan_operations_keep_other_leaves`.
-/

namespace TriadSim

open Go Library Model Router Store

/-! ## Programs that write single leaves of running -/

/-- The accesses of a program that only reads, and writes and deletes leaves of running at such
paths. -/
def Request.WritesAt (allowed : GoString → Prop) : Request → Prop
  | .mutate (.set .running path _) => allowed path
  | .mutate (.delete .running path) => allowed path
  | request => request.Reads

variable {allowed : GoString → Prop}

theorem Request.Reads.writesAt {request : Request} (hReads : request.Reads) :
    request.WritesAt allowed := by
  cases request with
  | mutate op => exact hReads.elim
  | _ => exact hReads

/-- Everywhere else, running keeps its leaves. -/
def AgreeOff (allowed : GoString → Prop) (before after : Values) : Prop :=
  ∀ path : GoString, ¬ allowed path → after[path]? = before[path]?

theorem AgreeOff.refl (content : Values) :
    AgreeOff allowed content content :=
  fun _ _ => rfl

theorem AgreeOff.trans {first second third : Values} (hFirst : AgreeOff allowed first second)
    (hSecond : AgreeOff allowed second third) :
    AgreeOff allowed first third :=
  fun path hPath => (hSecond path hPath).trans (hFirst path hPath)

theorem agreeOff_insert {content : Values} {path : GoString} (hPath : allowed path) (leaf : Leaf) :
    AgreeOff allowed content (content.insert path leaf) := by
  intro other hOther
  rw [FinMap.getElem?_insert_ite, if_neg]
  rintro rfl
  exact hOther hPath

theorem agreeOff_erase {content : Values} {path : GoString} (hPath : allowed path) :
    AgreeOff allowed content (content.erase path) := by
  intro other hOther
  rw [FinMap.getElem?_erase_ite, if_neg]
  rintro rfl
  exact hOther hPath

section Writes

variable {json : Json} {opts : Options} {allowed : GoString → Prop} {α : Type}

/-- One access of such a program. -/
theorem agreeOff_handle (env : CallEnv) {request : Request} (hRequest : request.WritesAt allowed)
    (machine : Machine json) :
    AgreeOff allowed machine.memory.running
      (Machine.handle opts env request machine).2.memory.running := by
  cases request with
  | mutate op =>
    show AgreeOff allowed _ (machine.memory.mutate opts env op).2.contents.running
    rcases machine.memory.mutate_meets opts env op with ⟨_, hEffect⟩ | ⟨_, _, hSame⟩
    · cases op with
      | set ds path value =>
        cases ds with
        | running =>
          obtain ⟨leaf, _, _, _, hAfter⟩ := hEffect
          rw [hAfter]
          exact agreeOff_insert hRequest leaf
        | _ => exact hRequest.elim
      | delete ds path =>
        cases ds with
        | running =>
          rw [hEffect.2]
          exact agreeOff_erase hRequest
        | _ => exact hRequest.elim
      | _ => exact hRequest.elim
    · rw [hSame]
      exact AgreeOff.refl _
  | ctxErr | values | generation | cachedBindings | cacheBindings => exact AgreeOff.refl _
  | _ => exact hRequest.elim

/-- The whole program. -/
theorem ensures_agreeOff {program : Prog α} {locks : Mutex → Prop} {returns : α → Prop}
    (hOnly : program.Only (Request.WritesAt allowed) locks returns) (machine : Machine json) :
    program.Ensures opts (fun value after => returns value ∧
      AgreeOff allowed machine.memory.running after.memory.running) machine :=
  Program.Ensures.of_only hOnly
    (fun env _ _ hRequest hState => hState.trans (agreeOff_handle env hRequest _))
    (AgreeOff.refl _)

end Writes

/-! ## Snapshots -/

section Snapshots

variable {json : Json} {opts : Options} {machine : Machine json} {r : Router} {α : Type}

theorem ensures_during {context : GoString} {step : Prog (Except Err α)}
    {post : Except Err α → Machine json → Prop}
    (hStep : step.Ensures opts
      (fun result after => post (result.mapError (L2.inContext context)) after) machine) :
    (L2.during context step).Ensures opts post machine := by
  refine Program.Ensures.bind hStep ?_
  intro result after hResult
  cases result with
  | error err | ok value => exact hResult

/-- A snapshot is the device that running describes. -/
abbrev SnapshotOf (r : Router) (machine : Machine json) (result : Except Err Model.Device)
    (after : Machine json) : Prop :=
  after = machine ∧ ∀ device, result = .ok device →
    deviceFromValues r.root machine.memory.running = .ok device

theorem ensures_snapshot :
    (r.snapshot .running).Ensures opts (SnapshotOf r machine) machine := by
  refine ensures_andThen (ensures_checkCtx (fun _ => ⟨fun _ hOk => (by cases hOk),
    fun _ _ => ⟨rfl, fun _ hOk => by cases hOk⟩⟩) fun env => ⟨?_, ?_⟩)
  · intro content hContent
    have hFound : machine.memory.datastore .running = .ok content :=
      Memory.datastore_of_values_eq_ok hContent
    cases Except.ok.inj hFound
    exact ⟨rfl, fun device hDevice => hDevice⟩
  · exact fun err _ => ⟨rfl, fun device hDevice => by cases hDevice⟩

theorem ensures_snapshot_during {context : GoString} :
    (L2.during context (r.snapshot .running)).Ensures opts (SnapshotOf r machine) machine := by
  refine ensures_during (ensures_snapshot.mono ?_)
  rintro result after ⟨rfl, hDevice⟩
  exact ⟨rfl, fun device hResult => hDevice device (mapError_eq_ok_iff.mp hResult)⟩

end Snapshots

/-! ## The router -/

section Only

variable {allowed : GoString → Prop} {locks : Mutex → Prop} {r : Router} {α : Type}

theorem only_during {context : GoString} {step : Prog (Except Err α)}
    {calls : Request → Prop} {returns : Except Err α → Prop}
    (hStep : step.Only calls locks returns) (hError : ∀ err, returns (.error err)) :
    (L2.during context step).Only calls locks returns := by
  refine hStep.bind ?_
  intro result hResult
  cases result with
  | error err => exact hError _
  | ok value => exact hResult

variable {path : GoString}

theorem only_set {value : GoValue} (hPath : allowed path) :
    (r.set .running path value).Only (Request.WritesAt allowed) locks fun _ => True := by
  refine only_checkCtx (fun _ => Request.Reads.writesAt) (only_andThen_ret ?_ fun _ => trivial)
    fun _ => trivial
  intro converted hConvert
  have hWrites : allowed converted.path := by rwa [path_of_convert_eq_ok hConvert]
  exact only_andThen (fun _ => True) (only_ask hWrites fun _ => trivial)
    (fun _ _ => trivial) fun _ => trivial

theorem only_state {value : Leaf} (hPath : allowed path) :
    (L2.state r path value).Only (Request.WritesAt allowed) locks fun _ => True := by
  refine only_andThen (fun _ => True) (only_setState (fun _ => Request.Reads.writesAt) ?_)
    (fun _ _ => trivial) fun _ => trivial
  intro converted hConvert
  show allowed converted.path
  rwa [path_of_convertTo_eq_ok hConvert]

theorem only_delete (hPath : allowed path) :
    (r.delete .running path).Only (Request.WritesAt allowed) locks fun _ => True := by
  refine only_checkCtx (fun _ => Request.Reads.writesAt) (only_andThen_ret ?_ fun _ => trivial)
    fun _ => trivial
  intro located hLocate
  refine ⟨?_, fun response => ?_⟩
  · show allowed located.1
    rwa [(locate_eq_ok hLocate).1]
  · cases response <;> trivial

/-- The leaves of a list are below the path that was asked for. -/
theorem only_list {entry : GoString} (hEntry : entry ≠ []) :
    (r.list .running entry).Only (Request.WritesAt allowed) locks fun result =>
      ∀ leaves, result = .ok leaves →
        ∀ leaf ∈ leaves, hasPrefix leaf.path (entry ++ [47]) = true := by
  refine only_checkCtx (fun _ => Request.Reads.writesAt) (only_andThen (fun _ => True)
    (only_ask (Request.Reads.writesAt trivial) fun _ => trivial) ?_ ?_) ?_
  · intro content _ leaves hLeaves leaf hLeaf
    obtain ⟨stored, hStored, hDescribe⟩ := exists_of_mem_right (mapM_eq_ok_iff.mp hLeaves) hLeaf
    obtain ⟨⟨canonical, kind, readOnly⟩, hLocate, hResult⟩ := bind_eq_ok_iff.mp hDescribe
    cases hResult
    rw [result_path, (locate_eq_ok hLocate).1]
    simpa [hEntry] using (List.mem_filter.mp hStored).2
  · intro err leaves hLeaves
    cases hLeaves
  · intro err leaves hLeaves
    cases hLeaves

end Only

namespace L2

section Only

variable {allowed : GoString → Prop} {locks : Mutex → Prop} {r : Router}

theorem only_snapshot_during {context : GoString} :
    (during context (r.snapshot .running)).Only (Request.WritesAt allowed) locks fun _ => True :=
  only_during (only_snapshot fun _ => Request.Reads.writesAt) fun _ => trivial

theorem only_removeLeaves (leaves : List Result) (hLeaves : ∀ leaf ∈ leaves, allowed leaf.path) :
    (removeLeaves r .running leaves).Only (Request.WritesAt allowed) locks fun _ => True := by
  induction leaves with
  | nil => trivial
  | cons leaf rest ih =>
    rw [List.forall_mem_cons] at hLeaves
    exact only_andThen (fun _ => True) (only_delete hLeaves.1) (fun _ _ => ih hLeaves.2)
      fun _ => trivial

/-- The leaves of an entry are removed below it. -/
theorem only_removeSubtree {entry : GoString} (hEntry : entry ≠ [])
    (hBelow : ∀ path, hasPrefix path (entry ++ [47]) = true → allowed path) :
    (removeSubtree r .running entry).Only (Request.WritesAt allowed) locks fun _ => True :=
  only_andThen _ (only_list hEntry)
    (fun leaves hLeaves => only_removeLeaves leaves fun leaf hLeaf =>
      hBelow _ (hLeaves leaves rfl leaf hLeaf)) fun _ => trivial

end Only

/-! ## The MAC table -/

section Mac

variable {locks : Mutex → Prop} {r : Router}

/-- The paths of the MAC table. -/
def InMACTable (path : GoString) : Prop :=
  text "mac-table/" <+: path

theorem inMACTable_of_below {address path : GoString}
    (hBelow : hasPrefix path (macEntry address ++ [47]) = true) : InMACTable path := by
  rw [hasPrefix, List.isPrefixOf_iff_prefix] at hBelow
  refine List.IsPrefix.trans ?_ hBelow
  simp only [macEntry, List.append_assoc]
  exact ⟨_, rfl⟩

theorem macEntry_ne_nil (address : GoString) : macEntry address ≠ [] :=
  List.append_ne_nil_of_left_ne_nil (List.append_ne_nil_of_left_ne_nil (by decide) _) _

theorem only_syncCount :
    (syncCount r).Only (Request.WritesAt InMACTable) locks fun _ => True := by
  refine only_andThen (fun _ => True) ?_ ?_ fun _ => trivial
  · exact only_andThen (fun _ => True) only_snapshot_during (fun _ _ => trivial) fun _ => trivial
  · intro entries _
    exact only_during (only_state ⟨_, rfl⟩) fun _ => trivial

theorem only_removeMAC {address : GoString} :
    (removeMAC r address).Only (Request.WritesAt InMACTable) locks fun _ => True :=
  only_removeSubtree (macEntry_ne_nil address) fun _ => inMACTable_of_below

/-- The loop of a sweep, by induction on what is left of the entries. -/
theorem only_ageEntries {agingTime elapsed : UInt32} (entries : List MACEntry) (removed : Nat) :
    (ageEntries r agingTime elapsed removed entries).Only (Request.WritesAt InMACTable) locks
      fun _ => True := by
  induction entries generalizing removed with
  | nil =>
    unfold ageEntries
    split
    · trivial
    · exact only_syncCount
  | cons entry rest ih =>
    unfold ageEntries
    split
    · exact ih removed
    split
    · exact only_andThen (fun _ => True) only_removeMAC (fun _ _ => ih _) fun _ => trivial
    · refine only_andThen (fun _ => True) (only_state ?_) (fun _ _ => ih _) fun _ => trivial
      exact ⟨text "entry[mac-address=" ++ entry.mac ++ "]" ++ "/age", by simp [macEntry]; rfl⟩

end Mac

/-! ## LLDP -/

section Lldp

variable {locks : Mutex → Prop} {r : Router}

/-- The paths of LLDP. -/
def InLLDP (path : GoString) : Prop :=
  text "lldp/" <+: path

theorem only_refreshNeighbors {ttl : UInt32} (neighbors : List LLDPNeighbor) :
    (refreshNeighbors r ttl neighbors).Only (Request.WritesAt InLLDP) locks fun _ => True := by
  induction neighbors with
  | nil => trivial
  | cons neighbor rest ih =>
    unfold refreshNeighbors
    split
    · exact ih
    · refine only_andThen (fun _ => True) (only_during (only_set ?_) fun _ => trivial)
        (fun _ _ => ih) fun _ => trivial
      exact ⟨text "neighbors/neighbor[port=" ++ neighbor.port ++ "]" ++ "/ttl",
        by simp [neighborEntry]; rfl⟩

theorem only_refreshLLDP :
    (refreshLLDP r).Only (Request.WritesAt InLLDP) locks fun _ => True := by
  refine only_andThen (fun _ => True) ?_ ?_ fun _ => trivial
  · exact only_andThen (fun _ => True) only_snapshot_during (fun _ _ => trivial) fun _ => trivial
  · intro config _
    dsimp only
    split
    · trivial
    · exact only_refreshNeighbors _

end Lldp

/-! ## VLANs -/

section Vlan

/-- An operation on a VLAN. -/
inductive VLANOperation where
  | create (new : VLAN)
  | replace (new : VLAN)
  | delete (id : UInt16)
  | setMember (id : UInt16) (new : VLANPort)
  | removeMember (id : UInt16) (port : GoString)

/-- The VLAN that it is about. -/
def VLANOperation.id : VLANOperation → UInt16
  | create new | replace new => new.id
  | delete id | setMember id _ | removeMember id _ => id

def VLANOperation.program (r : Router) : VLANOperation → Prog (Except Err Unit)
  | create new => createVLAN r new
  | replace new => replaceVLAN r new
  | delete id => deleteVLAN r id
  | setMember id new => L2.setMember r id new
  | removeMember id port => L2.removeMember r id port

/-- The leaves of a VLAN. -/
def InVLAN (id : UInt16) (path : GoString) : Prop :=
  vlanEntry id ++ [47] <+: path

/-- The program only reads, and writes and deletes leaves of the VLAN. -/
abbrev Within {α : Type} (id : UInt16) (program : Prog α) : Prop :=
  program.Only (Request.WritesAt (InVLAN id)) (fun _ => True) fun _ => True

variable {α β : Type} {r : Router} {id : UInt16}

theorem within_andThen {step : Prog (Except Err α)} {next : α → Prog (Except Err β)}
    (hStep : Within id step) (hNext : ∀ value, Within id (next value)) :
    Within id (andThen step next) :=
  only_andThen (fun _ => True) hStep (fun value _ => hNext value) fun _ => trivial

theorem within_afterCheck {context : GoString} {check : Check} {next : Prog (Except Err α)}
    (hNext : Within id next) : Within id (afterCheck context check (.locked .l2Manager next)) := by
  unfold afterCheck
  split
  · trivial
  · exact Program.Only.locked trivial hNext

theorem within_vlan : Within id (vlan r id) :=
  within_andThen (within_andThen only_snapshot_during fun _ => trivial) fun _ => trivial

theorem inVLAN_member (port : GoString) : InVLAN id (memberEntry id port ++ [47]) :=
  ⟨text "ports/port[port=" ++ port ++ text "]" ++ [47], by simp [memberEntry]; rfl⟩

theorem within_writeFields {entry context : GoString} (hEntry : InVLAN id (entry ++ [47]))
    (fields : List (GoString × Leaf)) : Within id (writeFields r entry context fields) := by
  induction fields with
  | nil => trivial
  | cons field rest ih =>
    exact within_andThen (only_during (only_set (hEntry.trans (List.prefix_append _ _)))
      fun _ => trivial) fun _ => ih

theorem within_writeMembers (members : List VLANPort) : Within id (writeMembers r id members) := by
  induction members with
  | nil => trivial
  | cons member rest ih =>
    exact within_andThen (within_writeFields (inVLAN_member member.port) _) fun _ => ih

theorem within_removeSubtree {entry : GoString} (hEntry : InVLAN id (entry ++ [47])) :
    Within id (removeSubtree r .running entry) := by
  refine only_removeSubtree ?_ ?_
  · rintro rfl
    have hLead : vlanEntry id ≠ [] := List.append_ne_nil_of_left_ne_nil
      (List.append_ne_nil_of_left_ne_nil (by decide) _) _
    exact hLead (by simpa using hEntry.length_le)
  · intro path hPath
    rw [hasPrefix, List.isPrefixOf_iff_prefix] at hPath
    exact hEntry.trans hPath

theorem within_dropMembers {new : VLAN} (members : List VLANPort) :
    Within new.id (dropMembers r new members) := by
  induction members with
  | nil => trivial
  | cons member rest ih =>
    unfold dropMembers
    split
    · exact ih
    · exact within_andThen (within_removeSubtree (inVLAN_member member.port)) fun _ => ih

theorem within_operation (op : VLANOperation) : Within op.id (op.program r) := by
  have hWrite : ∀ new : VLAN, Within new.id
      (andThen (writeVLAN r new) fun () => writeMembers r new.id new.ports) := fun new =>
    within_andThen (within_writeFields (List.prefix_refl _) _) fun _ => within_writeMembers _
  cases op with
  | create new =>
    refine within_afterCheck (within_vlan.bind ?_)
    rintro (err | found) _
    · dsimp only
      split
      · exact hWrite new
      · trivial
    · trivial
  | replace new =>
    exact within_afterCheck (within_andThen within_vlan fun current =>
      within_andThen (within_dropMembers current.ports) fun _ => hWrite new)
  | delete id =>
    exact Program.Only.locked trivial (within_andThen within_vlan fun _ =>
      within_removeSubtree (List.prefix_refl _))
  | setMember id new =>
    exact within_afterCheck (within_andThen within_vlan fun _ =>
      within_writeFields (inVLAN_member new.port) _)
  | removeMember id port =>
    exact Program.Only.locked trivial (within_andThen (within_andThen within_vlan
      fun _ => trivial) fun _ => within_removeSubtree (inVLAN_member port))

/-- However operations on VLANs interleave and wherever they fail, running keeps all leaves that
are not of one of their VLANs. -/
theorem vlan_operations_keep_other_leaves {ι : Type} [DecidableEq ι] {json : Json} (opts : Options)
    (r : Router) (ops : ι → VLANOperation) (envs : ι → Nat → CallEnv) (machine : Machine json)
    {system : System ι Mutex Request Request.Response CallEnv (Machine json) (Except Err Unit)}
    (hReaches : System.Reaches (Machine.handle opts) (fun _ _ => True)
      (System.start (fun thread => (ops thread).program r) envs machine) system) :
    AgreeOff (fun path => ∃ thread, InVLAN (ops thread).id path) machine.memory.running
      system.world.state.memory.running := by
  obtain ⟨hReplays, hState⟩ := hReaches.replays rfl
  have hOnly := hReaches.each_only rfl fun thread => within_operation (r := r) (ops thread)
  rw [hState]
  -- By induction on the calls: each of them writes at most a leaf of the VLAN of its thread.
  refine (hReplays.and hOnly).induction (I := fun history => AgreeOff _ _
    (lastState machine history).memory.running) (AgreeOff.refl _) ?_
  rintro earlier event hEarlier ⟨⟨env, hEvent⟩, hWrites⟩
  rw [lastState_append, hEvent]
  refine hEarlier.trans fun path hPath => agreeOff_handle env hWrites _ path ?_
  exact fun hIn => hPath ⟨event.thread, hIn⟩

theorem vlan_creations_keep_other_leaves :
    ∃ system, (System.start (fun _ : Fin 2 => createVLAN defaultRouter ⟨10, "a", [], []⟩)
      (fun _ _ => CallEnv.quiet) (Datatree.machineWith Datatree.bareContent)).run
        (Machine.handle (defaultRouter.options [])) [0, 0, 0, 0, 0, 0, 0, 0, 1] = some system ∧
      AgreeOff (fun path => ∃ _ : Fin 2, InVLAN 10 path) Datatree.bareContent
        system.world.state.memory.running := by
  refine Exists.imp (fun system hRun => ⟨hRun, vlan_operations_keep_other_leaves _ defaultRouter
    (fun _ => .create ⟨10, "a", [], []⟩) _ (Datatree.machineWith Datatree.bareContent)
    (System.reaches_of_run _ hRun)⟩) (Option.isSome_iff_exists.mp ?_)
  decide +kernel

end Vlan

end L2
end TriadSim
