import TriadSim.Live
import TriadSim.System.MemoizedIndex

/-!
# A SET that runs alone

What an SNMP SET does when nobody cancels it and nobody else writes: either it answers an error
status and running is as it was, or the leaves behind its variable bindings have their converted
values and the new content is valid.  The index that the bindings are looked up in may come from
the cache, so the cache has to be that of the content.  The main results are
`set_alone_is_atomic_and_valid` and, for the cache, `indexCoherent_of_reaches`.
-/

namespace TriadSim

open Go Library Router Store

section Live

variable {json : Json}

/-- The cached index of running, if it is for the present generation, is that of the
present content. -/
def Machine.IndexCoherent (r : Router) (machine : Machine json) : Prop :=
  ∀ cache, machine.bindCache = some cache → cache.ds = .running →
    cache.generation = machine.memory.generation.running →
    r.bindingsOf machine.memory.running = .ok cache.bindings

/-- The cached index of running is not for the next generation. -/
def Machine.IndexBehind (machine : Machine json) : Prop :=
  ∀ cache, machine.bindCache = some cache → cache.ds = .running →
    cache.generation ≠ machine.memory.generation.running + 1

variable {opts : Options} {machine : Machine json} {r : Router} {α : Type}

/-- The cache is so in every run of `Bindings` and mutations, while the generation has not
come round. -/
theorem indexCoherent_of_reaches {ι : Type} [DecidableEq ι] {activities : ι → IndexActivity}
    {envs : ι → Nat → CallEnv} (hFresh : machine.bindCache = none)
    {system : System ι Mutex Request Request.Response CallEnv (Machine json)
      (Option (Except Err (List Binding)))}
    (hReaches : System.Reaches (Machine.handle opts) (fun _ _ => True)
      (indexSystem r activities envs machine) system)
    (hFew : system.world.history.countP changesStore + 1 < 2 ^ 64) :
    system.world.state.IndexCoherent r ∧ system.world.state.IndexBehind := by
  obtain ⟨hCounted, hState, hCache⟩ := (kept_indexContract hFresh hReaches (by omega)).inv
  constructor
  · intro cache hCached hRunning hGeneration
    obtain ⟨start, read, content, hStart, hRead, hVersion, hContent, hBindings⟩ :=
      hCache cache hCached
    rw [hRunning] at hVersion hContent
    have hSame := content_eq_of_version_eq (hCounted .running) hStart hRead (by omega)
      (by rw [hVersion, ← hState]; exact hGeneration.symm)
    rw [hContent, ← hState] at hSame
    rw [show system.world.state.memory.running = content from Option.some.inj hSame]
    exact hBindings
  · intro cache hCached hRunning hNext
    obtain ⟨start, read, content, hStart, hRead, hVersion, _⟩ := hCache cache hCached
    rw [hRunning] at hVersion
    refine version_ne_add_one (hCounted .running) (hStart.trans hRead) hFew ?_
    rw [hVersion, ← hState]
    exact hNext

theorem indexCoherent_after_overtakenCalls :
    ∃ system, overtakenCalls = some system ∧ system.world.state.IndexCoherent defaultRouter ∧
      system.world.state.IndexBehind := by
  have hEnd : overtakenCalls.map (fun system =>
      decide (system.world.history.countP changesStore + 1 < 2 ^ 64)) = some true := by
    decide +kernel
  obtain ⟨system, hRun, hFew⟩ := Option.map_eq_some_iff.mp hEnd
  exact ⟨system, hRun, indexCoherent_of_reaches rfl (System.reaches_of_run _ hRun)
    (of_decide_eq_true hFew)⟩

/-- The look into the cache. -/
theorem ensures_live_cached {ds : Datastore} {generation : UInt64}
    {next : Option (List Binding) → Prog α} {post : α → Machine json → Prop}
    (hNext : (next (machine.cached ds generation)).LiveEnsures opts post machine) :
    Prog.LiveEnsures opts (.call (.cachedBindings ds generation) next) post machine :=
  fun _ => hNext

/-- `Bindings` answers the bindings of running, and keeps them for the next call. -/
theorem ensures_live_bindings (hCoherent : machine.IndexCoherent r) :
    (r.bindings .running).LiveEnsures opts (fun result after =>
      result = r.bindingsOf machine.memory.running ∧
        ∃ bindCache, after = { machine with bindCache } ∧ after.IndexCoherent r ∧
          (machine.IndexBehind → after.IndexBehind)) machine := by
  refine ensures_live_checkCtx (ensures_andThen ?_)
  rintro ⟨env, hLive⟩
  have hGeneration : machine.memory.generationOf env .running =
      .ok machine.memory.generation.running := by
    rw [Memory.generationOf, hLive]
  refine ⟨?_, fun err hError => ?_⟩
  · intro generation hOk
    have hSame : generation = machine.memory.generation.running :=
      (Except.ok.inj (hGeneration.symm.trans hOk)).symm
    subst hSame
    show Prog.LiveEnsures opts _ _ machine
    refine ensures_live_cached ?_
    cases hCached : machine.cached .running machine.memory.generation.running with
    | some bindings =>
      have hBindings := hCoherent _ (bindCache_of_cached_eq_some hCached) rfl rfl
      exact ⟨hBindings.symm, machine.bindCache, rfl, hCoherent, id⟩
    | none =>
      refine ensures_andThen (ensures_live_checkCtx ?_)
      rintro ⟨read, hRead⟩
      have hValues : machine.memory.values read .running = .ok machine.memory.running := by
        rw [Memory.values, hRead]
        rfl
      refine ⟨?_, fun err hError => by cases hValues.symm.trans hError⟩
      intro content hContent
      cases hValues.symm.trans hContent
      refine ensures_andThen ⟨?_, ?_⟩
      · intro bindings hBindings store
        refine ⟨hBindings.symm, _, rfl, ?_, ?_⟩
        · intro cache hCache _ _
          cases hCache
          exact hBindings
        · intro _ cache hCache _
          cases hCache
          intro hNext
          exact absurd (UInt64.left_eq_add.mp hNext) (by decide)
      · intro err hError
        exact ⟨hError.symm, machine.bindCache, rfl, hCoherent, id⟩
  · cases hGeneration.symm.trans hError

end Live

namespace Snmp

variable {json : Json} {opts : Options} {machine : Machine json} {r : Router}

/-- The leaf that a variable binding is about, with the value it is to have. -/
def Behind (r : Router) (bindings : List Binding) (varbind : VarBind) (result : Result) : Prop :=
  ∃ binding value, (pduIndex bindings)[trimOID varbind.name]? = some binding ∧
    fromPDU varbind.value = some value ∧ r.convert binding.path value = .ok result

/-- A content with some leaves set, one after another. -/
def setAll (content : Values) (results : List Result) : Values :=
  results.foldl (fun current result => current.insert result.path result.value) content

theorem union_setAll (content changed : Values) (results : List Result) :
    content ∪ setAll changed results = setAll (content ∪ changed) results := by
  induction results generalizing changed with
  | nil => rfl
  | cons result results ih =>
    rw [setAll, List.foldl_cons, ← setAll, ih, FinMap.union_insert]
    rfl

theorem behind_of_checkVarBind_eq_ok {bindings : List Binding} {varbind : VarBind}
    {converted : Result} (hCheck : checkVarBind r (pduIndex bindings) varbind = .ok converted) :
    Behind r bindings varbind converted := by
  unfold checkVarBind at hCheck
  split at hCheck
  · cases hCheck
  · next binding hBinding =>
    split at hCheck
    · cases hCheck
    · split at hCheck
      · cases hCheck
      · next value hValue =>
        split at hCheck
        · cases hCheck
        · next found hConvert =>
          cases hCheck
          exact ⟨binding, value, hBinding, hValue, hConvert⟩

/-- What the loop has checked when it ends well: the leaves behind the bindings, and that
the content with them is valid. -/
structure Accepted (r : Router) (bindings : List Binding) (content changed : Values)
    (varbinds : List VarBind) (after : Values) : Prop where
  checked : Checked r content after
  behind : ∃ results, List.Forall₂ (Behind r bindings) varbinds results ∧
    after = setAll changed results
  valid : varbinds ≠ [] ∨ r.validate none (content ∪ changed) = .ok () →
    r.validate none (content ∪ after) = .ok ()

/-- How the loop ends: with an error status, or with all bindings accepted. -/
def CheckEnds (r : Router) (bindings : List Binding) (content changed : Values)
    (varbinds : List VarBind) : Except (Status × UInt8) Values → Prop
  | .error failure => failure.1 ≠ .noError
  | .ok accepted => Accepted r bindings content changed varbinds accepted

/-- The loop over the variable bindings, by induction on what is left of them. -/
theorem ensures_live_checkVarBinds {content : Values} (bindings : List Binding) (number : Nat)
    (varbinds : List VarBind) (changed : Values) (hChecked : Checked r content changed) :
    (checkVarBinds r (pduIndex bindings) number varbinds (content ∪ changed) changed).LiveEnsures
      opts (fun result after => after = machine ∧
        CheckEnds r bindings content changed varbinds result) machine := by
  induction varbinds generalizing number changed with
  | nil =>
    exact ⟨rfl, hChecked, ⟨[], .nil, rfl⟩,
      fun hValid => hValid.resolve_left fun hNone => hNone rfl⟩
  | cons varbind rest ih =>
    rw [checkVarBinds]
    cases hCheck : checkVarBind r (pduIndex bindings) varbind with
    | error status => exact ⟨rfl, ne_noError_of_checkVarBind_eq_error hCheck⟩
    | ok converted =>
      obtain ⟨value, hConvert⟩ := checkVarBind_eq_ok hCheck
      rintro ⟨env, hLive⟩
      have hCtx : (liveHandle json opts ⟨env, hLive⟩ .ctxErr machine).1 = none := hLive
      rw [hCtx]
      dsimp only [Program.bind]
      cases hValid : r.validate none
          ((content ∪ changed).insert converted.path converted.value) with
      | error err => exact ⟨rfl, show Status.inconsistentValue ≠ .noError by decide⟩
      | ok done =>
        have hNext := hChecked.insert hConvert hValid
        rw [← FinMap.union_insert] at hValid ⊢
        refine (ih (number + 1) _ hNext).mono ?_
        rintro result after ⟨rfl, hResult⟩
        refine ⟨rfl, ?_⟩
        cases result with
        | error failure => exact hResult
        | ok accepted =>
          obtain ⟨hAccepted, ⟨results, hBehind, hAfter⟩, hStill⟩ := hResult
          exact ⟨hAccepted,
            ⟨converted :: results, .cons (behind_of_checkVarBind_eq_ok hCheck) hBehind,
              hAfter⟩, fun _ => hStill (Or.inr hValid)⟩

/-- A write of running leaves no index that is wrong for its generation. -/
theorem indexCoherent_of_tracks {env : CallEnv} {op : Mutation} {memory : Memory json}
    (hCoherent : machine.IndexCoherent r) (hBehind : machine.IndexBehind)
    (hTracks : Memory.Tracks opts env op .running machine.memory memory) :
    Machine.IndexCoherent r { machine with memory } := by
  intro cache hCache hRunning hGeneration
  rcases hTracks with ⟨hContent, hSame⟩ | ⟨_, hRecorded⟩
  · have hContent' : memory.running = machine.memory.running := Option.some.inj hContent
    have hSame' : memory.generation.running = machine.memory.generation.running :=
      Option.some.inj hSame.generation
    show r.bindingsOf memory.running = _
    rw [hContent']
    exact hCoherent cache hCache hRunning (hGeneration.trans hSame')
  · have hNext : memory.generation.running = machine.memory.generation.running + 1 :=
      Option.some.inj hRecorded.generation
    exact absurd (hGeneration.trans hNext) (hBehind cache hCache hRunning)

/-- The batch of an accepted SET, written to running. -/
theorem ensures_live_apply {changed : Values} (hChecked : Checked r machine.memory.running changed)
    (hCoherent : machine.IndexCoherent r) (hBehind : machine.IndexBehind) :
    (r.apply .running (changed.map fun _ value => .leaf value) []).LiveEnsures opts
      (fun result after => match result with
        | .error _ => after.memory.running = machine.memory.running
        | .ok () => after.memory.running = machine.memory.running ∪ changed ∧
            after.IndexCoherent r) machine := by
  refine ensures_live_checkCtx (ensures_andThen ⟨?_, fun err _ => rfl⟩)
  intro batch hConvert
  rintro ⟨env, hLive⟩
  show (match (machine.memory.mutate opts env (.apply .running batch [])).1 with
    | .error _ => (machine.memory.mutate opts env (.apply .running batch [])).2.running =
        machine.memory.running
    | .ok () => (machine.memory.mutate opts env (.apply .running batch [])).2.running =
        machine.memory.running ∪ changed ∧ Machine.IndexCoherent r { machine with
          memory := (machine.memory.mutate opts env (.apply .running batch [])).2 })
  rcases machine.memory.mutate_meets opts env (.apply .running batch []) with
    ⟨hOk, leaves, hCheck, _, _, hAfter⟩ | ⟨err, hError, hSame⟩
  · rw [hOk]
    refine ⟨?_, indexCoherent_of_tracks hCoherent hBehind
      (machine.memory.mutate_tracks opts env _ .running)⟩
    rw [← Datatree.checkValues_of_convertAll_eq_ok hChecked.stable hConvert hCheck]
    exact congrArg Contents.running hAfter
  · rw [hError]
    exact congrArg Contents.running hSame

/-- What a SET does to running, with the reply it is answered with. -/
structure Answered (r : Router) (varbinds : List VarBind) (old new : Values) (reply : Reply) :
    Prop where
  failed : reply.status ≠ .noError → new = old
  valid : reply.status = .noError → varbinds ≠ [] ∨ r.validate none old = .ok () →
    r.validate none new = .ok ()
  set : reply.status = .noError → ∃ bindings results, r.bindingsOf old = .ok bindings ∧
    List.Forall₂ (Behind r bindings) varbinds results ∧ new = setAll old results

theorem Answered.failure {varbinds : List VarBind} {old : Values} {status : Status}
    {number : UInt8} (hStatus : status ≠ .noError) :
    Answered r varbinds old old (.failure status number) :=
  ⟨fun _ => rfl, fun hOk => absurd hOk hStatus, fun hOk => absurd hOk hStatus⟩

/-- The index of a valid content can be built. -/
theorem exists_bindingsOf_eq_ok {content : Values} (hValid : r.validate none content = .ok ()) :
    ∃ bindings, r.bindingsOf content = .ok bindings := by
  unfold Router.validate validateValues at hValid
  dsimp only at hValid
  split at hValid
  · cases hValid
  · next device hDevice =>
    refine ⟨(buildObjects device).filterMap (bindingOf content), ?_⟩
    rw [bindingsOf, hDevice]
    rfl

theorem ensures_live_orGenErr {α : Type} {step : Prog (Except Err α)} {next : α → Prog Reply}
    {post : Reply → Machine json → Prop}
    (hStep : step.LiveEnsures opts (fun result after =>
      (∀ value, result = .ok value → (next value).LiveEnsures opts post after) ∧
        ∀ err, result = .error err → post (.failure .genErr 0) after) machine) :
    (orGenErr step next).LiveEnsures opts post machine := by
  refine Program.Ensures.bind hStep ?_
  rintro result after ⟨hOk, hError⟩
  cases result with
  | error err => exact hError err rfl
  | ok value => exact hOk value rfl

/-- The index that the bindings of a request are looked up in. -/
theorem ensures_live_index (hCoherent : machine.IndexCoherent r) :
    (index r).LiveEnsures opts (fun result after =>
      (∃ bindCache, after = { machine with bindCache } ∧ after.IndexCoherent r ∧
        (machine.IndexBehind → after.IndexBehind)) ∧
      (∀ found, result = .ok found → ∃ bindings,
        r.bindingsOf machine.memory.running = .ok bindings ∧ found = pduIndex bindings) ∧
      ∀ err, result = .error err → r.bindingsOf machine.memory.running = .error err) machine := by
  refine ensures_andThen ((ensures_live_bindings hCoherent).mono ?_)
  rintro result after ⟨hResult, hAfter⟩
  refine ⟨?_, ?_⟩
  · rintro bindings rfl
    refine ⟨hAfter, ?_, ?_⟩
    · rintro found hFound
      exact ⟨bindings, hResult.symm, (Except.ok.inj hFound).symm⟩
    · intro err hError
      cases hError
  · rintro err rfl
    refine ⟨hAfter, ?_, ?_⟩
    · intro found hFound
      cases hFound
    · intro err' hError
      cases hError
      exact hResult.symm

/-- The body of a SET. -/
theorem ensures_live_applySet (varbinds : List VarBind) (hCoherent : machine.IndexCoherent r)
    (hBehind : machine.IndexBehind) :
    (applySet r varbinds).LiveEnsures opts (fun reply after =>
      Answered r varbinds machine.memory.running after.memory.running reply) machine := by
  have hGenErr : Status.genErr ≠ .noError := by decide
  refine ensures_live_orGenErr ((ensures_live_values rfl).mono ?_)
  rintro described start ⟨rfl, hDescribed⟩
  refine ⟨?_, fun err _ => .failure hGenErr⟩
  intro results hResults
  obtain ⟨hContent, _⟩ := Datatree.editorOf_spec (hDescribed.symm.trans hResults)
  refine ensures_live_orGenErr ((ensures_live_index hCoherent).mono ?_)
  rintro found _ ⟨⟨bindCache, rfl, hCoherent', hBehind'⟩, hFound, _⟩
  refine ⟨?_, fun err _ => .failure hGenErr⟩
  intro lookup hLookup
  obtain ⟨bindings, hBindings, rfl⟩ := hFound lookup hLookup
  rw [show (results.map fun _ result => result.value) = start.memory.running ∪ ∅ by
    rw [FinMap.union_empty]; exact hContent]
  refine (ensures_live_checkVarBinds bindings 1 varbinds ∅ Checked.empty).bind ?_
  rintro checked _ ⟨rfl, hChecked⟩
  cases checked with
  | error failure => exact .failure hChecked
  | ok changed =>
    obtain ⟨hAccepted, ⟨written, hWritten, hChanged⟩, hValid⟩ := hChecked
    have hNew : start.memory.running ∪ changed = setAll start.memory.running written := by
      rw [hChanged, union_setAll, FinMap.union_empty]
    rw [FinMap.union_empty] at hValid
    have hBatch : Checked r ({ start with bindCache } : Machine json).memory.running changed :=
      hAccepted
    refine ensures_live_orGenErr
      ((ensures_live_apply hBatch hCoherent' (hBehind' hBehind)).mono ?_)
    rintro applied after hApplied
    cases applied with
    | error err =>
      refine ⟨fun value hOk => (nomatch hOk), fun err _ => ?_⟩
      rw [show after.memory.running = start.memory.running from hApplied]
      exact .failure hGenErr
    | ok done =>
      obtain ⟨hRunning, hAfter⟩ := hApplied
      refine ⟨fun _ _ => ?_, fun err hError => by cases hError⟩
      -- The new content has an index, so the write is answered.
      have hIndexed : ∃ bindings, r.bindingsOf after.memory.running = .ok bindings := by
        rw [show after.memory.running = start.memory.running ∪ changed from hRunning]
        by_cases hNone : varbinds = []
        · subst hNone
          cases hWritten
          rw [hNew]
          exact ⟨bindings, hBindings⟩
        · exact exists_bindingsOf_eq_ok (hValid (Or.inl hNone))
      refine ensures_live_orGenErr ((ensures_live_index hAfter).mono ?_)
      rintro echoed _ ⟨⟨bindCache, rfl, _⟩, _, hFailed⟩
      refine ⟨fun _ _ => ?_, fun err hError => ?_⟩
      · have hFinal : after.memory.running = setAll start.memory.running written :=
          hRunning.trans hNew
        refine ⟨fun hStatus => absurd rfl hStatus, fun _ hCase => ?_, fun _ =>
          ⟨bindings, written, hBindings, hWritten, hFinal⟩⟩
        show r.validate none after.memory.running = .ok ()
        rw [show after.memory.running = start.memory.running ∪ changed from hRunning]
        exact hValid hCase
      · obtain ⟨bindings', hOk⟩ := hIndexed
        cases hOk.symm.trans (hFailed err hError)

/-- An SNMP SET that runs alone and is not cancelled, with any number of variable bindings,
on any running content: an error status leaves running alone; otherwise the leaves behind
the bindings are set, one after another, to their converted values and no other leaf
changes, and the new content is valid, unless nothing was to be set and the old content
was not valid either. -/
theorem set_alone_is_atomic_and_valid (opts : Options) (r : Router) (varbinds : List VarBind)
    (machine : Machine json) (hCoherent : machine.IndexCoherent r) (hBehind : machine.IndexBehind)
    (env : Nat → CallEnv) (hLive : ∀ index, (env index).ctx = none) :
    Answered r varbinds machine.memory.running
      ((set r varbinds).run opts env machine).2.memory.running
      ((set r varbinds).run opts env machine).1 := by
  have hSet : (set r varbinds).LiveEnsures opts (fun reply after =>
      Answered r varbinds machine.memory.running after.memory.running reply) machine := by
    refine ensures_live_orGenErr (ensures_live_checkCtx (Program.Ensures.locked ?_))
    refine (ensures_live_applySet varbinds hCoherent hBehind).bind ?_
    intro reply after hAnswered
    refine ⟨fun value hValue => ?_, fun err hError => by cases hError⟩
    cases hValue
    exact hAnswered
  exact hSet.run env hLive

/-- A content that is not valid: there is no VLAN 5000. -/
def strayContent : Values :=
  Datatree.bareContent.insert (text "vlans/vlan[id=5000]/id") (.uint16 5000)

theorem set_of_name_sets_name :
    ((set defaultRouter [⟨".1.3.6.1.2.1.1.5.0", .bytes "core"⟩]).run (defaultRouter.options [])
        (fun _ => CallEnv.quiet) (Datatree.machineWith Datatree.namedContent)).1.status =
          .noError ∧
      Answered defaultRouter [⟨".1.3.6.1.2.1.1.5.0", .bytes "core"⟩] Datatree.namedContent
        ((set defaultRouter [⟨".1.3.6.1.2.1.1.5.0", .bytes "core"⟩]).run
          (defaultRouter.options []) (fun _ => CallEnv.quiet)
          (Datatree.machineWith Datatree.namedContent)).2.memory.running
        ((set defaultRouter [⟨".1.3.6.1.2.1.1.5.0", .bytes "core"⟩]).run
          (defaultRouter.options []) (fun _ => CallEnv.quiet)
          (Datatree.machineWith Datatree.namedContent)).1 := by
  constructor
  · decide +kernel
  · exact set_alone_is_atomic_and_valid (defaultRouter.options []) defaultRouter _
      (Datatree.machineWith Datatree.namedContent) (fun cache hCache => by cases hCache)
      (fun cache hCache => by cases hCache) (fun _ => CallEnv.quiet) fun _ => rfl

/-- A SET without variable bindings succeeds on a content that is not valid, and leaves it
there. -/
theorem empty_set_accepts_invalid_running :
    ((set defaultRouter []).run (defaultRouter.options []) (fun _ => CallEnv.quiet)
        (Datatree.machineWith strayContent)).1.status = .noError ∧
      (defaultRouter.validate none ((set defaultRouter []).run (defaultRouter.options [])
        (fun _ => CallEnv.quiet) (Datatree.machineWith strayContent)).2.memory.running).isOk =
          false := by
  constructor <;> decide +kernel

end Snmp

end TriadSim
