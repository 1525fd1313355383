import TriadSim.Library.Histories
import TriadSim.System.Domains

/-!
# The phases of a confirmed commit

A thread that takes part in a confirmed commit goes through phases, which its own calls
determine: it is about to apply a commit, it has applied the first one of a chain, it has
confirmed, or it has a rollback in its hands.  In every run a rollback is armed, confirmed
and run only in the matching phase (`disciplined_of_reaches`).
-/

namespace TriadSim

open Go Library Router Store

/-- Where a thread is with a commit. -/
inductive Phase where
  | idle
  /-- A confirmed commit has arrived. -/
  | applying (rpc : Nat)
  /-- It was the first of its chain to be applied, and its rollback is to be armed. -/
  | applied (rollback : Rollback)
  /-- A plain commit has ended what was in progress. -/
  | confirming
  /-- A timer or the end of a session has taken a rollback. -/
  | holding (rollback : Rollback)

section Phases

variable {ι : Type} {json : Json}

/-- The phase after a call of the thread. -/
def Phase.next (phase : Phase) : MachineEvent ι json → Phase
  | ⟨_, .issued true, rpc, _, _⟩ => .applying rpc
  | ⟨_, .commitConfirmed rollback, .ok (), before, _⟩ =>
    if before.confirmed.pend.isNone then .applied rollback else .idle
  | ⟨_, .commitConfirmed _, .error _, _, _⟩ => .idle
  | ⟨_, .confirm, _, _, _⟩ => .confirming
  | ⟨_, .takeDue _, some rollback, _, _⟩ => .holding rollback
  | ⟨_, .takeOwned _, some rollback, _, _⟩ => .holding rollback
  | ⟨_, .arm _ _, _, _, _⟩ => .idle
  | ⟨_, .restore _, _, _, _⟩ => .idle
  | ⟨_, .returned _ _, _, _, _⟩ => .idle
  | _ => phase

variable [DecidableEq ι]

/-- The phase of a thread after a history. -/
def phaseOf (history : List (MachineEvent ι json)) (thread : ι) : Phase :=
  history.foldl (fun phase event => if event.thread = thread then phase.next event else phase) .idle

theorem phaseOf_append (history : List (MachineEvent ι json)) (event : MachineEvent ι json)
    (thread : ι) :
    phaseOf (history ++ [event]) thread =
      if event.thread = thread then (phaseOf history thread).next event
      else phaseOf history thread := by
  rw [phaseOf, List.foldl_append]
  rfl

variable {thread : ι} {rollback : Rollback} {sessionID : UInt32}

theorem phaseOf_append_of_ne {history : List (MachineEvent ι json)} {event : MachineEvent ι json}
    (hOther : event.thread ≠ thread) :
    phaseOf (history ++ [event]) thread = phaseOf history thread := by
  rw [phaseOf_append, if_neg hOther]

/-- The phases in which the calls of a confirmed commit are made. -/
def Disciplined (earlier : List (MachineEvent ι json)) (event : MachineEvent ι json) : Prop :=
  match event.request with
  | .commitConfirmed rollback => phaseOf earlier event.thread = .applying rollback.rpc
  | .arm _ rollback => phaseOf earlier event.thread = .applied rollback
  | .restore rollback => phaseOf earlier event.thread = .holding rollback
  | .returned false true => phaseOf earlier event.thread = .confirming
  | _ => True

/-- Each thread looks after its own phase, and whoever changes the confirmed commit in
progress holds its lock. -/
def phaseContract : MachineContract ι json Outcome where
  inv world := Each Disciplined world.history
  rely thread world now := phaseOf now.history thread = phaseOf world.history thread ∧
    (world.holder .confirmed = some thread → now.holder .confirmed = some thread ∧
      now.state.confirmed.pend = world.state.confirmed.pend)
  allowed _ _ := True
  guarantee world event := Disciplined world.history event ∧
    (event.after.confirmed.pend = event.before.confirmed.pend ∨
      world.holder .confirmed = some event.thread)
  yields _ _ _ := True
  post _ _ _ := True

variable {opts : Options}

theorem fits_phaseContract :
    Contract.Fits (Machine.handler json opts) (phaseContract : MachineContract ι json Outcome) := by
  refine ⟨?_, ?_, ?_, ?_, ?_, ?_⟩
  · intro thread world
    exact ⟨rfl, fun hHolds => ⟨hHolds, rfl⟩⟩
  · intro thread first second third hFirst hSecond
    refine ⟨hSecond.1.trans hFirst.1, fun hHolds => ?_⟩
    obtain ⟨hStill, hSame⟩ := hFirst.2 hHolds
    obtain ⟨hLast, hSame'⟩ := hSecond.2 hStill
    exact ⟨hLast, hSame'.trans hSame⟩
  · intro thread outcome world now _ _
    trivial
  · intro thread env request world hInv _ hGuarantee
    refine ⟨each_append_singleton.mpr ⟨hInv, hGuarantee.1⟩, ?_⟩
    intro other hOther
    refine ⟨phaseOf_append_of_ne hOther.symm, fun hHolds => ⟨hHolds, ?_⟩⟩
    rcases hGuarantee.2 with hSame | hMine
    · exact hSame
    · rw [hHolds, Option.some.injEq] at hMine
      exact absurd hMine hOther
  · intro thread lock world hInv hFree
    refine ⟨hInv, fun other _ => ⟨rfl, fun hHolds => ⟨?_, rfl⟩⟩⟩
    exact World.holder_hand_of_held hHolds (by rw [hFree]; simp)
  · intro thread lock world hInv hHeld _
    refine ⟨hInv, fun other hOther => ⟨rfl, fun hHolds => ⟨?_, rfl⟩⟩⟩
    exact World.holder_hand_of_held hHolds (by rw [hHeld]; simpa using hOther.symm)

/-! ## Programs -/

theorem phaseOf_record_self {world : MachineWorld ι json} {env : CallEnv} {request : Request} :
    phaseOf (world.record (callEvent (Machine.handle opts) thread env request world.state)).history
        thread =
      (phaseOf world.history thread).next
        (callEvent (Machine.handle opts) thread env request world.state) := by
  rw [World.history_record, phaseOf_append]
  exact if_pos rfl

/-- The accesses that have nothing to do with a confirmed commit. -/
def Request.Plain : Request → Prop
  | .ctxErr | .values _ | .generation _ | .snapshot | .mutate _ | .cachedBindings _ _
  | .cacheBindings _ | .pending | .clockManager | .setClockManager _ => True
  | _ => False

theorem plain_of_reads (request : Request) (hReads : request.Reads) : request.Plain := by
  cases request with
  | ctxErr | values ds | generation ds | cachedBindings ds generation | cacheBindings cache =>
    trivial
  | _ => exact hReads.elim

/-- A plain access leaves the confirmed commit alone. -/
theorem confirmed_of_plain {opts : Options} (env : CallEnv) (request : Request)
    (machine : Machine json) (hPlain : request.Plain) :
    (Machine.handle opts env request machine).2.confirmed = machine.confirmed := by
  cases request with
  | commitConfirmed _ | restore _ | arm _ _ | confirm | takeDue _ | takeOwned _ | issued _
  | returned _ _ => exact hPlain.elim
  | _ => rfl

/-- A plain access changes neither the phase nor the confirmed commit. -/
theorem guarantee_of_plain (opts : Options) (thread : ι) (env : CallEnv)
    (world : MachineWorld ι json) {request : Request} (hPlain : request.Plain) :
    phaseContract.guarantee world (callEvent (Machine.handle opts) thread env request world.state) ∧
      phaseOf (world.record
        (callEvent (Machine.handle opts) thread env request world.state)).history thread =
          phaseOf world.history thread ∧
      (Machine.handle opts env request world.state).2.confirmed = world.state.confirmed := by
  have hConfirmed : (Machine.handle opts env request world.state).2.confirmed =
      world.state.confirmed := confirmed_of_plain env request world.state hPlain
  refine ⟨⟨?_, Or.inl (congrArg Confirmed.pend hConfirmed)⟩, ?_, hConfirmed⟩
  · cases request <;> trivial
  · rw [phaseOf_record_self]
    cases request with
    | commitConfirmed _ | restore _ | arm _ _ | confirm | takeDue _ | takeOwned _ | issued _
    | returned _ _ => exact hPlain.elim
    | _ => rfl

/-- What a program ensures under the contract of the phases. -/
abbrev PhaseTriple {α : Type} (json : Json) (opts : Options) (thread : ι)
    (pre : MachineWorld ι json → Prop) (program : Prog α)
    (post : α → MachineWorld ι json → Prop) : Prop :=
  Contract.Triple (Machine.handler json opts) phaseContract thread pre program post

/-- The program keeps to the phases, wherever it begins. -/
abbrev KeepsPhases {α : Type} (json : Json) (opts : Options) (thread : ι) (program : Prog α) :
    Prop :=
  PhaseTriple json opts thread (fun _ => True) program fun _ _ => True

/-- A program of plain accesses leaves the phase of its thread alone. -/
theorem triple_plain {α : Type} {phase : Phase} {program : Prog α}
    (hOnly : program.Only Request.Plain (fun _ => True) fun _ => True) :
    PhaseTriple json opts thread (fun world => phaseOf world.history thread = phase) program
      fun _ world => phaseOf world.history thread = phase := by
  induction program with
  | ret value => exact fun _ hPhase => hPhase
  | call request next ih =>
    intro world hPhase now _ hRely env _
    obtain ⟨hGuarantee, hSame, _⟩ := guarantee_of_plain opts thread env now hOnly.1
    exact ⟨hGuarantee, ih _ (hOnly.2 _) _ (hSame.trans (hRely.1.trans hPhase))⟩
  | acquire lock next ih =>
    intro world hPhase now _ hRely _
    exact ih hOnly.2 _ (hRely.1.trans hPhase)
  | release lock next ih =>
    intro world hPhase now _ hRely _
    exact ⟨trivial, ih hOnly.2 _ (hRely.1.trans hPhase)⟩

theorem triple_of_plain {α : Type} {program : Prog α}
    (hOnly : program.Only Request.Plain (fun _ => True) fun _ => True) :
    KeepsPhases json opts thread program :=
  fun world _ => (triple_plain hOnly).mono (fun _ _ _ => trivial) world
    (show phaseOf world.history thread = _ from rfl)

theorem triple_confirm :
    PhaseTriple json opts thread (fun _ => True) Netconf.confirm
      fun _ world => phaseOf world.history thread = .confirming := by
  refine Contract.Triple.locked ?_ ?_ (fun _ _ _ => trivial) fun _ _ hPhase => hPhase
  · intro _ now _ _ _ _ later _ hRely env _
    obtain ⟨hHolds, _⟩ := hRely.2 (World.holder_hand_self now .confirmed (some thread))
    refine ⟨⟨trivial, Or.inr hHolds⟩, ?_⟩
    show phaseOf _ thread = .confirming
    rw [World.history_hand, phaseOf_record_self]
    rfl
  · intro _ world now hPhase hRely
    exact hRely.1.trans hPhase

theorem triple_commit : KeepsPhases json opts thread Netconf.commit := by
  have hStore : (Datatree.mapError Netconf.commitError (ask (.mutate .commit))).Only Request.Plain
      (fun _ => True) fun _ => True :=
    only_mapError (only_ask trivial fun _ => trivial) fun _ => trivial
  have hBody : PhaseTriple json opts thread (fun _ => True)
      (andThen (Datatree.mapError Netconf.commitError (ask (.mutate .commit))) fun () =>
        Netconf.confirm.bind fun () => .ret (.ok ()))
      fun result world => result.isOk = true → phaseOf world.history thread = .confirming := by
    refine triple_andThen (triple_of_plain hStore) ?_
      fun err world _ hOk => (by cases hOk)
    intro done world _
    exact (triple_confirm world trivial).bind fun _ _ hPhase _ => hPhase
  intro world _ now _ _ env _
  refine ⟨⟨trivial, Or.inl rfl⟩, (hBody _ trivial).bind ?_⟩
  intro result after hPhase later _ hRely env _
  refine ⟨⟨?_, Or.inl rfl⟩, trivial⟩
  cases result with
  | error err => trivial
  | ok done => exact hRely.1.trans (hPhase rfl)

/-- The thread has the lock and is about to apply its confirmed commit. -/
def Applying (thread : ι) (rollback : Rollback) (world : MachineWorld ι json) : Prop :=
  world.holder .confirmed = some thread ∧
    phaseOf world.history thread = .applying rollback.rpc

/-- The thread has the lock and has applied its confirmed commit; if nothing is in
progress, it was the first of its chain. -/
def Armable (thread : ι) (rollback : Rollback) (world : MachineWorld ι json) : Prop :=
  world.holder .confirmed = some thread ∧
    (world.state.confirmed.pend = none → phaseOf world.history thread = .applied rollback)

theorem Armable.of_rely {world now : MachineWorld ι json} (hArmable : Armable thread rollback world)
    (hRely : phaseContract.rely thread world now) :
    Armable thread rollback now := by
  obtain ⟨hHolds, hPhase⟩ := hArmable
  obtain ⟨hStill, hSame⟩ := hRely.2 hHolds
  refine ⟨hStill, fun hNone => hRely.1.trans (hPhase ?_)⟩
  rw [← hSame, hNone]

theorem triple_applyConfirmed :
    PhaseTriple json opts thread (Applying thread rollback) (ask (.commitConfirmed rollback))
      fun result world => result.isOk = true → Armable thread rollback world := by
  rintro world ⟨hHolds, hPhase⟩ now _ hRely env _
  obtain ⟨hStill, _⟩ := hRely.2 hHolds
  refine ⟨⟨hRely.1.trans hPhase, Or.inr hStill⟩, ?_⟩
  intro hOk
  refine ⟨hStill, ?_⟩
  intro hNone
  rw [phaseOf_record_self]
  have hBefore : now.state.confirmed.pend = none := hNone
  show Phase.next _ ⟨thread, .commitConfirmed rollback,
    (now.state.memory.mutate opts env .commit).1, now.state, _⟩ = _
  have hResult : ((now.state.memory.mutate opts env .commit).1).isOk = true := hOk
  cases hAnswer : (now.state.memory.mutate opts env .commit).1 with
  | error err =>
    rw [hAnswer] at hResult
    cases hResult
  | ok done =>
    show (if now.state.confirmed.pend.isNone then Phase.applied rollback else .idle) = _
    rw [hBefore]
    rfl

/-- After the commit: a follow-up only restarts the timer, the first of a chain arms. -/
def armFirst (sessionID : UInt32) (rollback : Rollback) : Prog (Except Err Unit) :=
  .call .pending fun
    | some _ => .ret (.ok ())
    | none => .call (.arm sessionID rollback) fun () => .ret (.ok ())

theorem triple_armFirst :
    PhaseTriple json opts thread (Armable thread rollback) (armFirst sessionID rollback)
      fun _ _ => True := by
  intro world hArmable now _ hRely env _
  have hNow := hArmable.of_rely hRely
  obtain ⟨hGuarantee, hSame, hConfirmed⟩ := guarantee_of_plain opts thread env now
    (show Request.Plain .pending from trivial)
  refine ⟨hGuarantee, ?_⟩
  generalize hPend : (Machine.handle opts env .pending now.state).1 = pend
  cases pend with
  | some pend => trivial
  | none =>
    intro later _ hRely env _
    obtain ⟨hStill, _⟩ := hRely.2 hNow.1
    exact ⟨⟨hRely.1.trans (hSame.trans (hNow.2 hPend)), Or.inr hStill⟩, trivial⟩

theorem triple_confirmedApply (rollback : Rollback) :
    PhaseTriple json opts thread
      (fun world => phaseOf world.history thread = .applying rollback.rpc)
      (Netconf.confirmedApply sessionID rollback) fun _ _ => True := by
  refine Contract.Triple.locked ?_ (fun _ _ _ _ _ => trivial) (fun _ _ _ => trivial)
    fun _ _ _ => trivial
  intro world now hPhase _ hRely _ later _ hLater env _
  obtain ⟨hHolds, _⟩ := hLater.2 (World.holder_hand_self now .confirmed (some thread))
  obtain ⟨hGuarantee, hSame, _⟩ := guarantee_of_plain opts thread env later
    (show Request.Plain .pending from trivial)
  refine ⟨hGuarantee, ?_⟩
  dsimp only
  split
  · trivial
  · refine triple_andThen (triple_mapError triple_applyConfirmed
      fun err world _ hOk => (by cases hOk)) ?_ (fun _ _ _ => trivial) _
      ⟨hHolds, hSame.trans (hLater.1.trans (hRely.1.trans hPhase))⟩
    intro done world hArmable
    exact triple_armFirst world (hArmable rfl)

theorem triple_commitConfirmed :
    KeepsPhases json opts thread (Netconf.commitConfirmed sessionID) := by
  intro world _ now _ _ env _
  refine ⟨⟨trivial, Or.inl rfl⟩, ?_⟩
  have hBody : PhaseTriple json opts thread
      (fun world => phaseOf world.history thread = .applying now.state.requests)
      (andThen (Datatree.mapError Datatree.failed (ask .snapshot)) fun snapshot =>
        Netconf.confirmedApply sessionID ⟨now.state.requests, snapshot⟩) fun _ _ => True :=
    triple_andThen (triple_plain (only_mapError (only_ask trivial fun _ => trivial)
      fun _ => trivial)) (fun snapshot => triple_confirmedApply ⟨_, snapshot⟩) fun _ _ _ => trivial
  refine (hBody _ ?_).bind ?_
  · show phaseOf _ thread = .applying now.state.requests
    rw [phaseOf_record_self]
    rfl
  · intro result after _ later _ _ env _
    exact ⟨⟨trivial, Or.inl rfl⟩, trivial⟩

/-- The thread holds the rollback that it has taken. -/
def Holding (thread : ι) (taken : Option Rollback) (world : MachineWorld ι json) : Prop :=
  ∀ rollback, taken = some rollback → phaseOf world.history thread = .holding rollback

/-- A rollback that has been taken is run. -/
theorem triple_runRollback {taken : Option Rollback} :
    PhaseTriple json opts thread (Holding thread taken) (Netconf.runRollback taken)
      fun _ _ => True := by
  cases taken with
  | none => exact fun _ _ => trivial
  | some rollback =>
    intro world hPhase now _ hRely env _
    exact ⟨⟨hRely.1.trans (hPhase rollback rfl), Or.inl rfl⟩, trivial⟩

/-- A rollback is taken under the lock, and run. -/
theorem triple_takenRollback {take : Prog (Option Rollback)}
    (hTake : PhaseTriple json opts thread
      (fun world => world.holder .confirmed = some thread) take (Holding thread)) :
    KeepsPhases json opts thread ((Program.locked .confirmed take).bind Netconf.runRollback) := by
  refine Contract.Triple.bind (Contract.Triple.locked ?_ ?_ (fun _ _ _ => trivial)
    fun _ _ hHolding => hHolding) fun taken => triple_runRollback
  · intro _ now _ _ _ _
    exact hTake _ (World.holder_hand_self now .confirmed (some thread))
  · intro taken world now hHolding hRely rollback hTaken
    exact hRely.1.trans (hHolding rollback hTaken)

theorem triple_fire {seq : UInt64} : KeepsPhases json opts thread (Netconf.fire seq) := by
  refine triple_takenRollback fun world hHolds now _ hRely env _ =>
    ⟨⟨trivial, Or.inr (hRely.2 hHolds).1⟩, fun rollback hTaken => ?_⟩
  rw [phaseOf_record_self]
  show Phase.next _ ⟨thread, .takeDue seq, (now.state.take _).1, _, _⟩ = _
  rw [show (now.state.take fun pend => pend.seq = seq).1 = some rollback from hTaken]
  rfl

theorem triple_sessionEnded :
    KeepsPhases json opts thread (Netconf.sessionEnded sessionID) := by
  refine triple_takenRollback fun world hHolds now _ hRely env _ =>
    ⟨⟨trivial, Or.inr (hRely.2 hHolds).1⟩, fun rollback hTaken => ?_⟩
  rw [phaseOf_record_self]
  show Phase.next _ ⟨thread, .takeOwned sessionID, (now.state.take _).1, _, _⟩ = _
  rw [show (now.state.take fun pend => pend.sessionID = sessionID).1 = some rollback from hTaken]
  rfl

/-- An activity that is no commit and no end of one makes plain accesses only. -/
theorem only_plain_of_isPlain (r : Router) {activity : Activity}
    (hPlain : activity.isPlain = true) :
    (activity.program r).Only Request.Plain (fun _ => True) fun _ => True := by
  have hTrue : ∀ request : Request, request.Reads → request.Plain := plain_of_reads
  cases activity with
  | transaction op =>
    have hOp : (op.program r).Only Request.Plain (fun _ => True) fun _ => True := by
      cases op with
      | edit ds req =>
        exact (only_edit hTrue (fun _ _ _ _ _ => trivial) trivial).bind fun _ _ => trivial
      | set varbinds =>
        exact (Snmp.only_set hTrue (fun _ _ _ _ _ => trivial) trivial).bind fun _ _ => trivial
    exact hOp.bind fun _ _ => trivial
  | editConfig target req =>
    exact (Netconf.only_editConfig hTrue (fun _ _ _ _ _ => trivial) trivial).bind
      fun _ _ => trivial
  | discardChanges =>
    exact (only_mapError (only_ask trivial fun _ => trivial) fun _ => trivial).bind
      fun _ _ => trivial
  | setState path value => exact (only_setState hTrue fun _ _ => trivial).bind fun _ _ => trivial
  | deleteState path => exact (only_deleteState hTrue fun _ _ => trivial).bind fun _ _ => trivial
  | increment port delta =>
    exact (only_increment hTrue trivial fun _ _ _ _ => trivial).bind fun _ _ => trivial
  | clockEvent type =>
    exact (Sync.only_handle hTrue trivial (fun _ => trivial) (fun _ _ _ => trivial) trivial).bind
      fun _ _ => trivial
  | syncLoss source =>
    exact (Sync.only_syncLoss hTrue trivial (fun _ => trivial) (fun _ _ _ => trivial)
      trivial).bind fun _ _ => trivial
  | expireHoldover =>
    exact (Sync.only_expireHoldover hTrue trivial (fun _ => trivial) (fun _ _ _ => trivial)
      trivial).bind fun _ _ => trivial
  | reconcilePTP =>
    exact (Sync.only_reconcilePTP hTrue trivial (fun _ => trivial) (fun _ _ _ => trivial)
      trivial).bind fun _ _ => trivial
  | commit | confirmedCommit sessionID | sessionEnded sessionID | timer seq => cases hPlain

/-- Whatever it is, an activity keeps to the phases. -/
theorem triple_activity (r : Router) (activity : Activity) :
    KeepsPhases json opts thread (activity.program r) := by
  cases hPlain : activity.isPlain with
  | true => exact triple_of_plain (only_plain_of_isPlain r hPlain)
  | false =>
    cases activity with
    | commit => exact Contract.Triple.map _ triple_commit
    | confirmedCommit sessionID => exact Contract.Triple.map _ triple_commitConfirmed
    | sessionEnded sessionID => exact Contract.Triple.map _ triple_sessionEnded
    | timer seq => exact Contract.Triple.map _ triple_fire
    | _ => cases hPlain

/-- In every run the calls of confirmed commits are made in their phases. -/
theorem disciplined_of_reaches {r : Router} {activities : ι → Activity}
    {envs : ι → Nat → CallEnv} {machine : Machine json}
    {allowed : MachineWorld ι json → MachineEvent ι json → Prop}
    {system : System ι Mutex Request Request.Response CallEnv (Machine json) Outcome}
    (hReaches : System.Reaches (Machine.handle opts) allowed
      (activitySystem r activities envs machine) system) :
    Each Disciplined system.world.history := by
  have hFirst : Contract.Kept (Machine.handler json opts) phaseContract
      (activitySystem r activities envs machine) :=
    ⟨each_nil, fun thread => triple_activity r (activities thread) _ trivial⟩
  exact (hFirst.of_reaches fits_phaseContract (hReaches.mono fun _ _ _ => trivial)).inv

end Phases

/-! ## What a call does to phases and to the confirmed commit -/

section Calls

variable {ι : Type} {json : Json} {opts : Options}

/-- The rollback of a confirmed commit that a call has applied. -/
def confirmedBy : MachineEvent ι json → Option Rollback
  | ⟨_, .commitConfirmed rollback, .ok (), _, _⟩ => some rollback
  | _ => none

/-- The rollback that a call has put back. -/
def restoredBy : MachineEvent ι json → Option Rollback
  | ⟨_, .restore rollback, .ok (), _, _⟩ => some rollback
  | _ => none

/-- The number under which a call has taken in a confirmed commit. -/
def issuedNumber : MachineEvent ι json → Option Nat
  | ⟨_, .issued true, rpc, _, _⟩ => some rpc
  | _ => none

variable {env : CallEnv} {request : Request} {machine : Machine json} {phase : Phase}
    {event : MachineEvent ι json} {thread : ι} {rollback : Rollback}

/-- What is in progress was in progress before or has just been armed. -/
theorem pend_of_call {pend : PendingCommit}
    (hPend : (Machine.handle opts env request machine).2.confirmed.pend = some pend) :
    machine.confirmed.pend = some pend ∨ ∃ sessionID, request = .arm sessionID pend.rollback := by
  have hTake : ∀ meant, (machine.take meant).2.confirmed.pend = some pend →
      machine.confirmed.pend = some pend := by
    intro meant hTaken
    unfold Machine.take at hTaken
    split at hTaken
    · split at hTaken
      · cases hTaken
      · exact hTaken
    · exact hTaken
  cases request with
  | arm sessionID rollback =>
    cases hPend
    exact Or.inr ⟨sessionID, rfl⟩
  | confirm => cases hPend
  | takeDue seq | takeOwned sessionID => exact Or.inl (hTake _ hPend)
  | _ => exact Or.inl hPend

theorem applying_of_next {rpc : Nat} (hNext : phase.next event = .applying rpc) :
    phase = .applying rpc ∨ issuedNumber event = some rpc := by
  unfold Phase.next at hNext
  split at hNext
  · cases hNext
    exact Or.inr rfl
  · split at hNext <;> cases hNext
  all_goals first | exact Or.inl hNext | cases hNext

theorem issued_of_issuedNumber {rpc : Nat}
    (hIssued : issuedNumber (callEvent (Machine.handle opts) thread env request machine) =
      some rpc) : request = .issued true ∧ rpc = machine.requests := by
  cases request with
  | issued confirmed =>
    cases confirmed with
    | false => cases hIssued
    | true =>
      cases hIssued
      exact ⟨rfl, rfl⟩
  | _ => cases hIssued

theorem applied_of_next (hNext : phase.next event = .applied rollback) :
    phase = .applied rollback ∨
      confirmedBy event = some rollback ∧ event.before.confirmed.pend = none := by
  unfold Phase.next at hNext
  split at hNext
  · cases hNext
  · split at hNext
    · next hNone =>
      cases hNext
      exact Or.inr ⟨rfl, Option.isNone_iff_eq_none.mp hNone⟩
    · cases hNext
  all_goals first | exact Or.inl hNext | cases hNext

theorem confirming_of_next (hNext : phase.next event = .confirming) :
    phase = .confirming ∨ event.request = .confirm := by
  unfold Phase.next at hNext
  split at hNext
  · cases hNext
  · split at hNext <;> cases hNext
  · cases hNext
  · exact Or.inr rfl
  all_goals first | exact Or.inl hNext | cases hNext

theorem rollback_of_take {meant : PendingCommit → Bool}
    (hTaken : (machine.take meant).1 = some rollback) :
    ∃ pend, machine.confirmed.pend = some pend ∧ pend.rollback = rollback := by
  unfold Machine.take at hTaken
  split at hTaken
  · next pend hPend =>
    split at hTaken
    · cases hTaken
      exact ⟨pend, hPend, rfl⟩
    · cases hTaken
  · cases hTaken

/-- A rollback in the hands of a thread was there before or has just been taken. -/
theorem holding_of_next
    (hNext : phase.next (callEvent (Machine.handle opts) thread env request machine) =
      .holding rollback) :
    phase = .holding rollback ∨
      ∃ pend, machine.confirmed.pend = some pend ∧ pend.rollback = rollback := by
  cases request with
  | takeDue seq =>
    change phase.next ⟨thread, .takeDue seq, (machine.take _).1, machine, _⟩ = _ at hNext
    cases hTaken : (machine.take fun pend => pend.seq = seq).1 with
    | none =>
      rw [hTaken] at hNext
      exact Or.inl hNext
    | some taken =>
      rw [hTaken] at hNext
      cases hNext
      exact Or.inr (rollback_of_take hTaken)
  | takeOwned sessionID =>
    change phase.next ⟨thread, .takeOwned sessionID, (machine.take _).1, machine, _⟩ = _ at hNext
    cases hTaken : (machine.take fun pend => pend.sessionID = sessionID).1 with
    | none =>
      rw [hTaken] at hNext
      exact Or.inl hNext
    | some taken =>
      rw [hTaken] at hNext
      cases hNext
      exact Or.inr (rollback_of_take hTaken)
  | commitConfirmed applied =>
    change phase.next ⟨thread, .commitConfirmed applied,
      (machine.memory.mutate opts env .commit).1, machine, _⟩ = _ at hNext
    cases hResult : (machine.memory.mutate opts env .commit).1 with
    | error err =>
      rw [hResult] at hNext
      cases hNext
    | ok done =>
      rw [hResult] at hNext
      change (if _ then Phase.applied applied else Phase.idle) = _ at hNext
      split at hNext <;> cases hNext
  | issued confirmed =>
    cases confirmed with
    | false => exact Or.inl hNext
    | true => cases hNext
  | confirm | arm sessionID rollback | restore rollback | returned confirmed ok => cases hNext
  | _ => exact Or.inl hNext

theorem request_of_confirmedBy (hApplied : confirmedBy event = some rollback) :
    event.request = .commitConfirmed rollback := by
  unfold confirmedBy at hApplied
  split at hApplied
  · cases hApplied
    rfl
  · cases hApplied

theorem request_of_restoredBy (hRestored : restoredBy event = some rollback) :
    event.request = .restore rollback := by
  unfold restoredBy at hRestored
  split at hRestored
  · cases hRestored
    rfl
  · cases hRestored

/-- A rollback that succeeds leaves its snapshot in running. -/
theorem running_of_restoredBy
    (hRestored : restoredBy (callEvent (Machine.handle opts) thread env request machine) =
      some rollback) :
    (Machine.handle opts env request machine).2.memory.running = rollback.snapshot := by
  cases request_of_restoredBy hRestored
  change restoredBy ⟨thread, .restore rollback,
    (machine.memory.restore opts env rollback.snapshot).1, machine, _⟩ = _ at hRestored
  rcases machine.memory.restore_meets opts env rollback.snapshot with
    ⟨_, hAfter⟩ | ⟨err, hResult, _⟩
  · exact congrArg Contents.running hAfter
  · rw [hResult] at hRestored
    cases hRestored

/-- Numbers are given out in order. -/
theorem requests_le_of_call :
    machine.requests ≤ (Machine.handle opts env request machine).2.requests := by
  have hTake : ∀ meant, (machine.take meant).2.requests = machine.requests := by
    intro meant
    unfold Machine.take
    split
    · split <;> rfl
    · rfl
  cases request with
  | issued confirmed => exact Nat.le_succ _
  | takeDue seq | takeOwned sessionID => exact (hTake _).ge
  | _ => exact Nat.le_refl _

end Calls

end TriadSim
