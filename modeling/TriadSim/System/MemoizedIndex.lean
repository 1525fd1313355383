import TriadSim.Library.Versions
import TriadSim.Store.ChangeTracking
import TriadSim.System.Rules

/-!
# The memoized SNMP index

`Bindings` asks for the generation of a datastore, looks into the cache, and on a miss reads the
content, rebuilds and caches, each under a lock of its own.  The content may be newer than the
generation it is cached under.  Still every call answers what an uncached rebuild gives for a
content that the datastore held while the call ran, as long as the generation has not come round.
The main result is `bindings_are_linearizable`.
-/

namespace TriadSim

open Go Library Router Store

section Machine

variable {ι : Type} {json : Json}

/-- The generation of a datastore. -/
def Machine.versionOf (ds : Datastore) (machine : Machine json) : UInt64 :=
  (machine.memory.generation.get? ds).getD 0

/-- The content of a datastore, if there is one of that name. -/
def Machine.contentOf (ds : Datastore) (machine : Machine json) : Option Values :=
  machine.contents.get? ds

/-- The calls that can change a datastore. -/
def changesStore (event : MachineEvent ι json) : Bool :=
  match event.request with
  | .mutate _ | .commitConfirmed _ | .restore _ => true
  | _ => false

variable {event : MachineEvent ι json}

theorem counted_of_tracks {opts : Options} {env : CallEnv} {op : Mutation} (ds : Datastore)
    (hMoves : changesStore event = true)
    (hTracks : Memory.Tracks opts env op ds event.before.memory event.after.memory) :
    Counted (Machine.versionOf ds) (Machine.contentOf ds) changesStore event := by
  refine ⟨?_, fun hStill => by rw [hMoves] at hStill; cases hStill⟩
  rcases hTracks with ⟨hContent, hSame⟩ | ⟨_, hRecorded⟩
  · refine Or.inl ⟨?_, hContent⟩
    rw [Machine.versionOf, hSame.generation]
    rfl
  · cases ds with
    | unknown name => exact Or.inl ⟨rfl, rfl⟩
    | _ => exact Or.inr (Option.some.inj hRecorded.generation)

theorem counted_of_memory_eq (ds : Datastore) (hMemory : event.after.memory = event.before.memory) :
    Counted (Machine.versionOf ds) (Machine.contentOf ds) changesStore event := by
  have hSame : event.after.versionOf ds = event.before.versionOf ds ∧
      event.after.contentOf ds = event.before.contentOf ds := by
    rw [Machine.versionOf, Machine.versionOf, Machine.contentOf, Machine.contentOf,
      Machine.contents, Machine.contents, hMemory]
    exact ⟨rfl, rfl⟩
  exact ⟨Or.inl hSame, fun _ => hSame⟩

/-- Every call moves a generation with its content. -/
theorem counted_callEvent (opts : Options) (ds : Datastore) (thread : ι) (env : CallEnv)
    (request : Request) (machine : Machine json) :
    Counted (Machine.versionOf ds) (Machine.contentOf ds) changesStore
      (callEvent (Machine.handler json opts) thread env request machine) := by
  cases request with
  | mutate op => exact counted_of_tracks ds rfl (Memory.mutate_tracks opts env machine.memory op ds)
  | commitConfirmed rollback =>
    exact counted_of_tracks ds rfl (Memory.mutate_tracks opts env machine.memory .commit ds)
  | restore rollback =>
    exact counted_of_tracks ds rfl
      (Memory.mutate_tracks opts env machine.memory (.restore rollback.snapshot) ds)
  | takeDue seq | takeOwned sessionID => exact counted_of_memory_eq ds (memory_take _ _)
  | _ => exact counted_of_memory_eq ds rfl
where
  memory_take (machine : Machine json) (meant : PendingCommit → Bool) :
      (machine.take meant).2.memory = machine.memory := by
    unfold Machine.take
    split
    · split <;> rfl
    · rfl

end Machine

/-! ## Concurrent calls -/

/-- What a thread does: one call of `Bindings`, or mutations of the store. -/
inductive IndexActivity where
  | bindings (ds : Datastore)
  | mutations (ops : List Mutation)

/-- A thread of mutations, one after another. -/
def mutateAll : List Mutation → Prog (Option (Except Err (List Binding)))
  | [] => .ret none
  | op :: ops => .call (.mutate op) fun _ => mutateAll ops

/-- The program of an activity, with the result of a call of `Bindings`. -/
def IndexActivity.program (r : Router) :
    IndexActivity → Prog (Option (Except Err (List Binding)))
  | .bindings ds => (r.bindings ds).bind fun result => .ret (some result)
  | .mutations ops => mutateAll ops

/-- Calls of `Bindings` and mutations on one machine. -/
def indexSystem {ι : Type} {json : Json} (r : Router) (activities : ι → IndexActivity)
    (envs : ι → Nat → CallEnv) (machine : Machine json) :
    System ι Mutex Request Request.Response CallEnv (Machine json)
      (Option (Except Err (List Binding))) :=
  System.start (fun thread => (activities thread).program r) envs machine

section Linearizable

variable {ι : Type} {json : Json} (r : Router) (machine : Machine json)

/-- The bindings of a cache entry are those of a content that was read when the generation
was that of the entry, or later. -/
def ReadFor (history : List (MachineEvent ι json)) (cache : BindingCache) : Prop :=
  ∃ start read content, start <+: read ∧ read <+: history ∧
    (lastState machine start).versionOf cache.ds = cache.generation ∧
    (lastState machine read).contentOf cache.ds = some content ∧
    r.bindingsOf content = .ok cache.bindings

/-- A result is that of an uncached rebuild for a content that the datastore held between
two calls of the thread. -/
def RebuiltDuring (history : List (MachineEvent ι json)) (thread : ι) (ds : Datastore)
    (result : Except Err (List Binding)) : Prop :=
  ∃ opening held closing first last content,
    opening ++ [first] <+: history ∧ first.thread = thread ∧
    closing ++ [last] <+: history ∧ last.thread = thread ∧
    opening <+: held ∧ held <+: closing ∧
    (lastState machine held).memory.datastore ds = .ok content ∧
    r.bindingsOf content = result

/-- The error of a read that was refused. -/
def refusal (event : MachineEvent ι json) : Option Err :=
  match event with
  | ⟨_, .ctxErr, some err, _, _⟩ => some err
  | ⟨_, .generation _, .error err, _, _⟩ => some err
  | ⟨_, .values _, .error err, _, _⟩ => some err
  | _ => none

/-- A read of the thread was refused. -/
def Refused (history : List (MachineEvent ι json)) (thread : ι) (err : Err) : Prop :=
  ∃ event ∈ history, event.thread = thread ∧ refusal event = some err

/-- What a call of `Bindings` may answer. -/
def Answers (history : List (MachineEvent ι json)) (thread : ι) (ds : Datastore)
    (result : Except Err (List Binding)) : Prop :=
  RebuiltDuring r machine history thread ds result ∨
    ∃ err, result = .error err ∧ Refused history thread err

variable {r machine}

variable {history longer : List (MachineEvent ι json)} {cache : BindingCache} {env : CallEnv}
    {bindings : List Binding}
    {system : System ι Mutex Request Request.Response CallEnv (Machine json)
      (Option (Except Err (List Binding)))}

theorem ReadFor.mono (hRead : ReadFor r machine history cache) (hLonger : history <+: longer) :
    ReadFor r machine longer cache := by
  obtain ⟨start, read, content, hStart, hPrefix, hRest⟩ := hRead
  exact ⟨start, read, content, hStart, hPrefix.trans hLonger, hRest⟩

variable {ds : Datastore} {opts : Options} {before : Machine json} {activities : ι → IndexActivity}
    {generation : UInt64}

theorem Answers.mono {thread : ι} {result : Except Err (List Binding)}
    (hAnswers : Answers r machine history thread ds result) (hLonger : history <+: longer) :
    Answers r machine longer thread ds result := by
  rcases hAnswers with ⟨opening, held, closing, first, last, content, hOpening, hFirst, hClosing,
    hRest⟩ | ⟨err, hError, event, hEvent, hRefused⟩
  · exact Or.inl ⟨opening, held, closing, first, last, content, hOpening.trans hLonger, hFirst,
      hClosing.trans hLonger, hRest⟩
  · exact Or.inr ⟨err, hError, event, hLonger.subset hEvent, hRefused⟩

theorem bindCache_handle {request : Request}
    (hCache : (Machine.handle opts env request before).2.bindCache = some cache) :
    before.bindCache = some cache ∨ request = .cacheBindings cache := by
  have hTake : ∀ meant, (before.take meant).2.bindCache = before.bindCache := by
    intro meant
    unfold Machine.take
    split
    · split <;> rfl
    · rfl
  cases request with
  | cacheBindings other => exact Or.inr (by rw [← Option.some.inj hCache])
  | takeDue seq | takeOwned sessionID => exact Or.inl ((hTake _).symm.trans hCache)
  | _ => exact Or.inl hCache

/-- The contract of the index: nothing is cached but what was read for it, and a call
answers a rebuild. -/
def indexContract (r : Router) (machine : Machine json) (activities : ι → IndexActivity) :
    MachineContract ι json (Option (Except Err (List Binding))) where
  inv world := (∀ ds, CountedFrom machine (Machine.versionOf ds) (Machine.contentOf ds)
      changesStore world.history) ∧
    world.state = lastState machine world.history ∧
    ∀ cache, world.state.bindCache = some cache → ReadFor r machine world.history cache
  rely _ world now := world.history <+: now.history
  allowed world _ := world.history.countP changesStore < 2 ^ 64
  guarantee world event := ∀ cache, event.request = .cacheBindings cache →
    ReadFor r machine world.history cache
  yields _ _ _ := True
  post thread result world := ∀ ds, activities thread = .bindings ds →
    ∃ answer, result = some answer ∧ Answers r machine world.history thread ds answer

theorem fits_indexContract :
    Contract.Fits (Machine.handler json opts) (indexContract r machine activities) := by
  refine ⟨?_, ?_, ?_, ?_, ?_, ?_⟩
  · exact fun thread world => List.prefix_refl _
  · exact fun thread first second third hFirst hSecond => List.IsPrefix.trans hFirst hSecond
  · intro thread result world now hPost hRely ds hActivity
    obtain ⟨answer, rfl, hAnswers⟩ := hPost ds hActivity
    exact ⟨answer, rfl, hAnswers.mono hRely⟩
  · rintro thread env request world ⟨hCounted, hState, hCache⟩ _ hGuarantee
    have hLonger : world.history <+: world.history ++
        [callEvent (Machine.handler json opts) thread env request world.state] :=
      List.prefix_append _ _
    refine ⟨⟨?_, ?_, ?_⟩, fun _ _ => hLonger⟩
    · exact fun ds => each_append_singleton.mpr
        ⟨hCounted ds, hState, counted_callEvent opts ds thread env request world.state⟩
    · rw [World.history_record, lastState_append, World.state_record]
    · intro cache hAfter
      rcases bindCache_handle hAfter with hBefore | hRequest
      · exact (hCache cache hBefore).mono hLonger
      · exact (hGuarantee cache hRequest).mono hLonger
  · exact fun thread lock world hInv _ => ⟨hInv, fun _ _ => List.prefix_refl _⟩
  · exact fun thread lock world hInv _ _ => ⟨hInv, fun _ _ => List.prefix_refl _⟩

/-- A generation that was answered is that of the datastore. -/
theorem versionOf_of_generationOf_eq_ok
    (hGeneration : before.memory.generationOf env ds = .ok generation) :
    before.versionOf ds = generation := by
  unfold Memory.generationOf at hGeneration
  split at hGeneration
  · cases hGeneration
  · cases ds with
    | unknown name => cases hGeneration
    | _ => exact Except.ok.inj hGeneration

theorem bindCache_of_cached_eq_some (hCached : before.cached ds generation = some bindings) :
    before.bindCache = some ⟨ds, generation, bindings⟩ := by
  obtain ⟨cache, hFilter, rfl⟩ := Option.map_eq_some_iff.mp hCached
  obtain ⟨hCache, hMatch⟩ := Option.filter_eq_some_iff.mp hFilter
  rw [Bool.and_eq_true, decide_eq_true_eq, decide_eq_true_eq] at hMatch
  rw [hCache, ← hMatch.1, ← hMatch.2]

/-- A hit in the cache: the entry was read while the call ran, or the content has not
changed since. -/
theorem exists_held_of_cached {world : MachineWorld ι json} {asked : List (MachineEvent ι json)}
    (hInv : (indexContract r machine activities).inv world)
    (hFew : world.history.countP changesStore < 2 ^ 64) (hAsked : asked <+: world.history)
    (hGeneration : (lastState machine asked).versionOf ds = generation)
    (hCached : world.state.cached ds generation = some bindings) :
    ∃ held content, asked <+: held ∧ held <+: world.history ∧
      (lastState machine held).contentOf ds = some content ∧
      r.bindingsOf content = .ok bindings := by
  obtain ⟨hCounted, _, hCache⟩ := hInv
  obtain ⟨start, read, content, hStart, hRead, hVersion, hContent, hBindings⟩ :=
    hCache _ (bindCache_of_cached_eq_some hCached)
  rcases List.prefix_or_prefix_of_prefix hAsked hRead with hLater | hEarlier
  · exact ⟨read, content, hLater, hRead, hContent, hBindings⟩
  · refine ⟨asked, content, List.prefix_refl _, hAsked, ?_, hBindings⟩
    have hBefore : CountedFrom machine (Machine.versionOf ds) (Machine.contentOf ds)
        changesStore asked := by
      obtain ⟨later, hSplit⟩ := hAsked
      have hAll := hCounted ds
      rw [← hSplit] at hAll
      exact hAll.of_append
    have hAskedFew : asked.countP changesStore < 2 ^ 64 :=
      lt_of_le_of_lt (hAsked.sublist.countP_le) hFew
    rw [content_eq_of_version_eq hBefore hStart hEarlier hAskedFew
      (hGeneration.trans hVersion.symm)]
    exact hContent

section Calls

variable {opts : Options} {activities : ι → IndexActivity} {thread : ι} {ds : Datastore}
  {world : MachineWorld ι json}

variable {request : Request} {α : Type}

theorem refused_record {now : MachineWorld ι json} {env : CallEnv} {err : Err}
    (hRefused : refusal (callEvent (Machine.handler json opts) thread env request now.state) =
      some err) :
    Refused (now.record
      (callEvent (Machine.handler json opts) thread env request now.state)).history thread err :=
  ⟨_, List.mem_append_right _ (List.mem_singleton_self _), rfl, hRefused⟩

/-- One read: the call is recorded, and the thread goes on with its answer. -/
theorem keeps_read {next : request.Response → Prog α} {post : α → MachineWorld ι json → Prop}
    (hReads : ∀ cache, request ≠ .cacheBindings cache)
    (hNext : ∀ now env, (indexContract r machine activities).inv now →
      world.history <+: now.history → now.history.countP changesStore < 2 ^ 64 →
      Contract.Keeps (Machine.handler json opts) (indexContract r machine activities) thread
        (next (Machine.handle opts env request now.state).1) post
        (now.record (callEvent (Machine.handler json opts) thread env request now.state))) :
    Contract.Keeps (Machine.handler json opts) (indexContract r machine activities) thread
      (.call request next) post world := by
  intro now hInv hRely env hAllowed
  exact ⟨fun cache hRequest => absurd hRequest (hReads cache),
    hNext now env hInv hRely hAllowed⟩

/-- The check of a context that is cancelled ends the call. -/
theorem keeps_checkCtx {next : Prog (Except Err α)}
    {post : Except Err α → MachineWorld ι json → Prop}
    (hError : ∀ err (now : MachineWorld ι json), Refused now.history thread err →
      post (.error err) now)
    (hNext : ∀ (now : MachineWorld ι json) (event : MachineEvent ι json),
      world.history <+: now.history → event.thread = thread →
      Contract.Keeps (Machine.handler json opts) (indexContract r machine activities) thread
        next post (now.record event)) :
    Contract.Keeps (Machine.handler json opts) (indexContract r machine activities) thread
      (checkCtx next) post world := by
  refine keeps_read (fun cache hRequest => by cases hRequest) ?_
  intro now env _ hNow _
  generalize hCtx : (Machine.handle opts env .ctxErr now.state).1 = ctx
  cases ctx with
  | none => exact hNext now _ hNow rfl
  | some err =>
    refine hError err _ (refused_record ?_)
    have hEnvCtx : env.ctx = some err := hCtx
    show refusal (⟨thread, .ctxErr, env.ctx, _, _⟩ : MachineEvent ι json) = some err
    rw [hEnvCtx]
    rfl

/-- The content is that of the datastore when it was read. -/
theorem keeps_flatValues :
    Contract.Keeps (Machine.handler json opts) (indexContract r machine activities) thread
      (flatValues ds) (fun result now => match result with
        | .error err => Refused now.history thread err
        | .ok content => ∃ read event, world.history <+: read ∧ read ++ [event] <+: now.history ∧
            event.thread = thread ∧ (lastState machine read).contentOf ds = some content)
      world := by
  refine keeps_checkCtx (fun err now hRefused => hRefused) ?_
  intro checked event hChecked _
  refine keeps_read (fun cache hRequest => by cases hRequest) ?_
  intro now env hInv hNow _
  show (match now.state.memory.values env ds with
    | .error err => Refused _ thread err
    | .ok content => _)
  cases hValues : now.state.memory.values env ds with
  | error err =>
    refine refused_record ?_
    show refusal (⟨thread, .values ds, now.state.memory.values env ds, _, _⟩ :
      MachineEvent ι json) = some err
    rw [hValues]
    rfl
  | ok content =>
    refine ⟨now.history, _, (hChecked.trans (List.prefix_append _ _)).trans hNow,
      List.prefix_refl _, rfl, ?_⟩
    rw [← hInv.2.1]
    exact Memory.datastore_eq_ok_iff.mp (Memory.datastore_of_values_eq_ok hValues)

/-- A call of `Bindings` answers a rebuild, or the error of a read. -/
theorem triple_bindings :
    Contract.Triple (Machine.handler json opts) (indexContract r machine activities) thread
      (fun _ => True) (r.bindings ds)
      fun result world => Answers r machine world.history thread ds result := by
  intro world _
  refine keeps_checkCtx (fun err now hRefused => Or.inr ⟨err, rfl, hRefused⟩) ?_
  intro opening first _ hFirst
  refine keeps_read (fun cache hRequest => by cases hRequest) ?_
  intro asking env hInv hOpening _
  show Contract.Keeps _ _ thread (andThen (.ret (asking.state.memory.generationOf env ds)) _) _ _
  cases hGeneration : asking.state.memory.generationOf env ds with
  | error err =>
    refine Or.inr ⟨err, rfl, refused_record ?_⟩
    show refusal (⟨thread, .generation ds, asking.state.memory.generationOf env ds, _, _⟩ :
      MachineEvent ι json) = some err
    rw [hGeneration]
    rfl
  | ok generation =>
    have hVersion : (lastState machine asking.history).versionOf ds = generation := by
      rw [← hInv.2.1]
      exact versionOf_of_generationOf_eq_ok hGeneration
    refine keeps_read (fun cache hRequest => by cases hRequest) ?_
    intro now env hInv hNow hFew
    have hAsked : asking.history <+: now.history := (List.prefix_append _ _).trans hNow
    generalize hCached : (Machine.handle opts env (.cachedBindings ds generation) now.state).1 =
      response
    cases response with
    | some bindings =>
      obtain ⟨held, content, hAfter, hBefore, hContent, hBindings⟩ :=
        exists_held_of_cached hInv hFew hAsked hVersion hCached
      exact Or.inl ⟨opening.history, held, now.history, first, _, content,
        (hOpening.trans hAsked).trans (List.prefix_append _ _), hFirst, List.prefix_refl _, rfl,
        ((List.prefix_append _ _).trans hOpening).trans hAfter, hBefore,
        Memory.datastore_eq_ok_iff.mpr hContent, hBindings⟩
    | none =>
      refine keeps_flatValues.bind ?_
      rintro (err | content) read hRead
      · exact Or.inr ⟨err, rfl, hRead⟩
      · obtain ⟨reading, event, hLater, hEvent, hThread, hContent⟩ := hRead
        have hReading : asking.history <+: reading :=
          (hAsked.trans (List.prefix_append _ _)).trans hLater
        have hOpened : opening.history <+: reading :=
          ((List.prefix_append _ _).trans hOpening).trans hReading
        -- Both the error of the rebuild and its bindings are those of the content read.
        have hAnswers : ∀ (after : List (MachineEvent ι json)) result,
            read.history <+: after → r.bindingsOf content = result →
            Answers r machine after thread ds result := by
          intro after result hAfter hResult
          exact Or.inl ⟨opening.history, reading, reading, first, event, content,
            ((hOpening.trans hReading).trans (List.prefix_append _ _)).trans
              (hEvent.trans hAfter), hFirst, hEvent.trans hAfter, hThread, hOpened,
            List.prefix_refl _, Memory.datastore_eq_ok_iff.mpr hContent, hResult⟩
        cases hBindings : r.bindingsOf content with
        | error err =>
          show Contract.Keeps _ _ thread (andThen (.ret (r.bindingsOf content)) _) _ _
          rw [hBindings]
          exact hAnswers _ _ (List.prefix_refl _) hBindings
        | ok bindings =>
          show Contract.Keeps _ _ thread (andThen (.ret (r.bindingsOf content)) _) _ _
          rw [hBindings]
          intro caching _ hCaching env _
          refine ⟨?_, ?_⟩
          · intro cache hRequest
            cases hRequest
            exact ⟨asking.history, reading, content, hReading,
              ((List.prefix_append _ _).trans hEvent).trans hCaching, hVersion, hContent,
              hBindings⟩
          · exact hAnswers _ _ (hCaching.trans (List.prefix_append _ _)) hBindings

theorem triple_mutateAll (ops : List Mutation) :
    Contract.Triple (Machine.handler json opts) (indexContract r machine activities) thread
      (fun _ => True) (mutateAll ops) fun result _ => result = none := by
  induction ops with
  | nil => exact fun _ _ => rfl
  | cons op ops ih =>
    intro world _
    exact keeps_read (fun cache hRequest => by cases hRequest) fun now env _ _ _ => ih _ trivial

theorem triple_indexActivity (activities : ι → IndexActivity) (thread : ι) :
    Contract.Triple (Machine.handler json opts) (indexContract r machine activities) thread
      (fun _ => True) ((activities thread).program r)
      ((indexContract r machine activities).post thread) := by
  cases hActivity : activities thread with
  | bindings ds =>
    refine Contract.Triple.map some (triple_bindings.mono ?_)
    intro result world hAnswers other hOther
    rw [hActivity] at hOther
    cases hOther
    exact ⟨result, rfl, hAnswers⟩
  | mutations ops =>
    refine (triple_mutateAll ops).mono ?_
    intro result world _ ds hOther
    rw [hActivity] at hOther
    cases hOther

end Calls

/-- A run in which few mutations are made makes few before each of its calls. -/
theorem reaches_of_countP_lt [DecidableEq ι]
    {first : System ι Mutex Request Request.Response CallEnv (Machine json)
      (Option (Except Err (List Binding)))} {bound : Nat}
    (hReaches : System.Reaches (Machine.handle opts) (fun _ _ => True) first system)
    (hFew : system.world.history.countP changesStore < bound) :
    System.Reaches (Machine.handle opts)
      (fun world _ => world.history.countP changesStore < bound) first system := by
  induction hReaches with
  | start => exact .start
  | @step system next thread hReaches hStep _ ih =>
    have hLonger : system.world.history <+: next.world.history := by
      rcases System.step_cases _ hStep with ⟨request, rest, env, _, rfl⟩ |
        ⟨lock, rest, env, _, _, rfl⟩ | ⟨lock, rest, env, _, _, rfl⟩
      · exact List.prefix_append _ _
      · exact List.prefix_refl _
      · exact List.prefix_refl _
    have hBefore := lt_of_le_of_lt hLonger.sublist.countP_le hFew
    exact .step thread (ih hBefore) hStep fun _ _ => hBefore

/-- Every run of calls and mutations keeps the contract. -/
theorem kept_indexContract [DecidableEq ι] {envs : ι → Nat → CallEnv}
    (hFresh : machine.bindCache = none)
    (hReaches : System.Reaches (Machine.handle opts) (fun _ _ => True)
      (indexSystem r activities envs machine) system)
    (hFew : system.world.history.countP changesStore < 2 ^ 64) :
    Contract.Kept (Machine.handler json opts) (indexContract r machine activities) system := by
  have hFirst : Contract.Kept (Machine.handler json opts) (indexContract r machine activities)
      (indexSystem r activities envs machine) := by
    refine ⟨⟨fun ds => each_nil, rfl, ?_⟩, fun thread =>
      triple_indexActivity activities thread _ trivial⟩
    intro cache hCache
    have hNone : (none : Option BindingCache) = some cache := hFresh.symm.trans hCache
    cases hNone
  exact hFirst.of_reaches fits_indexContract (reaches_of_countP_lt hReaches hFew)

/-- The memoized index is linearizable.  Whatever mutations of the store and calls of
`Bindings` are interleaved, fewer than `2 ^ 64` mutations in all, a call that has returned
answers what an uncached rebuild gives for a content that the datastore held between two
accesses of the call, or the error of a read that was refused. -/
theorem bindings_are_linearizable [DecidableEq ι] (opts : Options) (r : Router)
    (activities : ι → IndexActivity) (envs : ι → Nat → CallEnv) (machine : Machine json)
    (hFresh : machine.bindCache = none)
    {system : System ι Mutex Request Request.Response CallEnv (Machine json)
      (Option (Except Err (List Binding)))}
    (hReaches : System.Reaches (Machine.handle opts) (fun _ _ => True)
      (indexSystem r activities envs machine) system)
    (hFew : system.world.history.countP changesStore < 2 ^ 64)
    {thread : ι} {ds : Datastore} (hActivity : activities thread = .bindings ds)
    {result : Option (Except Err (List Binding))}
    (hReturned : (system.threads thread).1 = .ret result) :
    ∃ answer, result = some answer ∧
      Answers r machine system.world.history thread ds answer := by
  have hPost := (kept_indexContract hFresh hReaches hFew).keeps thread
  rw [hReturned] at hPost
  exact hPost ds hActivity

end Linearizable

/-! ## A generation that comes round -/

/-- The mutation of the runs below. -/
def nameSystem : Mutation :=
  .set .running "system-info/name" (.leaf (.string "edge"))

/-- A call of `Bindings`, some mutations, and another call. -/
def callsAround (ops : List Mutation) : Fin 3 → IndexActivity :=
  ![.bindings .running, .mutations ops, .bindings .running]

/-- The calls that meet a mutation: the cache entry of the first is of the old content,
though it was made when the second had asked for the generation. -/
def overtakenCalls : Option (System (Fin 3) Mutex Request Request.Response CallEnv
    (Machine Json.plain) (Option (Except Err (List Binding)))) :=
  (indexSystem defaultRouter (callsAround [nameSystem]) (fun _ _ => CallEnv.quiet)
    (Datatree.machineWith Datatree.bareContent)).run (Machine.handle (defaultRouter.options []))
      ([0, 0, 0, 0, 0, 2, 2, 0, 1, 2])

theorem overtaken_call_answers_content_it_met :
    ∃ system, overtakenCalls = some system ∧ ∃ answer,
      (system.threads 2).1 = .ret (some (.ok answer)) ∧
      Answers defaultRouter (Datatree.machineWith Datatree.bareContent) system.world.history 2
        .running (.ok answer) := by
  have hEnd : overtakenCalls.map (fun system =>
      (((system.threads 2).1.result?.join.map Except.isOk),
        decide (system.world.history.countP changesStore < 2 ^ 64))) = some (some true, true) := by
    decide +kernel
  obtain ⟨system, hRun, hEnd⟩ := Option.map_eq_some_iff.mp hEnd
  rw [Prod.mk.injEq] at hEnd
  obtain ⟨result, hResult, hOk⟩ := Option.map_eq_some_iff.mp hEnd.1
  cases result with
  | error err => cases hOk
  | ok answer =>
    have hReturned := Program.eq_ret_of_result?_eq_some (Option.join_eq_some_iff.mp hResult)
    obtain ⟨found, hFound, hAnswers⟩ := bindings_are_linearizable (defaultRouter.options [])
      defaultRouter (callsAround [nameSystem]) (fun _ _ => CallEnv.quiet)
      (Datatree.machineWith Datatree.bareContent) rfl (System.reaches_of_run _ hRun)
      (of_decide_eq_true hEnd.2) (show callsAround [nameSystem] 2 = .bindings .running from rfl)
      hReturned
    cases hFound
    exact ⟨system, hRun, answer, hReturned, hAnswers⟩

section ComesRound

/-- What the calls of the runs below do. -/
abbrev indexHandle : Program.Handler Request Request.Response CallEnv (Machine Json.plain) :=
  Machine.handle (defaultRouter.options [])

variable {bindings : List Binding}

variable {machine : Machine Json.plain}

theorem exec_bindings_of_cached
    (hCached : machine.cached .running machine.memory.generation.running = some bindings) :
    ((IndexActivity.bindings .running).program defaultRouter).exec indexHandle
      (fun _ => CallEnv.quiet) machine =
        (some (.ok bindings), fun _ => CallEnv.quiet, machine) := by
  simp only [IndexActivity.program, Router.bindings, checkCtx, andThen, ask, Program.request,
    Program.bind, Program.exec, Program.later, Machine.handle, CallEnv.quiet,
    Memory.generationOf, hCached]
  rfl

theorem exec_bindings_of_not_cached
    (hCached : machine.cached .running machine.memory.generation.running = none)
    (hBindings : defaultRouter.bindingsOf machine.memory.running = .ok bindings) :
    (((IndexActivity.bindings .running).program defaultRouter).exec indexHandle
      (fun _ => CallEnv.quiet) machine).2.2 = { machine with
        bindCache := some ⟨.running, machine.memory.generation.running, bindings⟩ } := by
  simp only [IndexActivity.program, Router.bindings, checkCtx, andThen, flatValues, ask,
    Program.request, Program.bind, Program.exec, Program.later, Machine.handle, CallEnv.quiet,
    Memory.generationOf, Memory.values, Memory.datastore, hCached, hBindings]

/-- Some mutations, all the same. -/
theorem exec_mutateAll_replicate (count : Nat) (machine : Machine Json.plain) :
    ∃ memory, ((mutateAll (List.replicate (count + 1) nameSystem)).exec indexHandle
        (fun _ => CallEnv.quiet) machine).2.2 = { machine with memory } ∧
      memory.running = machine.memory.running.insert (text "system-info/name") (.string "edge") ∧
      memory.generation.running =
        machine.memory.generation.running + UInt64.ofNat (count + 1) := by
  induction count generalizing machine with
  | zero => exact ⟨_, rfl, rfl, rfl⟩
  | succ count ih =>
    obtain ⟨memory, hAfter, hContent, hGeneration⟩ :=
      ih (indexHandle .quiet (.mutate nameSystem) machine).2
    refine ⟨memory, hAfter, ?_, ?_⟩
    · rw [hContent]
      exact FinMap.insert_insert_self _ _ _
    · rw [hGeneration, Nat.add_comm (count + 1) 1, UInt64.ofNat_add 1, ← UInt64.add_assoc]
      rfl

theorem only_mutateAll (ops : List Mutation) :
    (mutateAll ops).Only (fun _ => True) (fun _ => False) fun _ => True := by
  induction ops with
  | nil => trivial
  | cons op ops ih => exact ⟨trivial, fun _ => ih⟩

theorem only_bindings_program (ds : Datastore) :
    ((IndexActivity.bindings ds).program defaultRouter).Only Request.Reads (fun _ => False)
      fun _ => True :=
  (only_bindings fun _ hReads => hReads).bind fun _ _ => trivial

/-- Two calls with so many mutations between them. -/
def callsAroundMany (count : Nat) : System (Fin 3) Mutex Request Request.Response CallEnv
    (Machine Json.plain) (Option (Except Err (List Binding))) :=
  indexSystem defaultRouter (callsAround (List.replicate (count + 1) nameSystem))
    (fun _ _ => CallEnv.quiet) (Datatree.machineWith Datatree.bareContent)

/-- A stale answer: the mutations between the two calls bring the generation back to
where it was. -/
theorem exists_stale_answer
    (hBindings : defaultRouter.bindingsOf Datatree.bareContent = .ok bindings) (count : Nat)
    (hRound : UInt64.ofNat (count + 1) = 0) :
    ∃ (system : System (Fin 3) Mutex Request Request.Response CallEnv (Machine Json.plain)
        (Option (Except Err (List Binding))))
        (earlier own : List (MachineEvent (Fin 3) Json.plain)),
      System.Reaches indexHandle (fun _ _ => True) (callsAroundMany count) system ∧
      (system.threads 2).1 = .ret (some (.ok bindings)) ∧
      system.world.history = earlier ++ own ∧
      (∀ event ∈ earlier, event.thread ≠ 2) ∧
      ∀ event ∈ own, event.before.memory.running = Datatree.namedContent ∧
        event.after.memory.running = Datatree.namedContent := by
  -- The first call caches the bindings of the old content at generation 0.
  have hStart : System.Reaches indexHandle (fun _ _ => True) (callsAroundMany count)
      (callsAroundMany count) := .start
  have hThread : (callsAroundMany count).threads 0 =
      ((IndexActivity.bindings .running).program defaultRouter, fun _ => CallEnv.quiet) := rfl
  obtain ⟨first, hFirst, _, hOthers, hState, calls, hHistory, hCalls⟩ :=
    hStart.exec (P := fun _ => True) hThread (only_bindings_program .running)
      (fun _ _ _ _ hTrue => hTrue) trivial
  rw [show (callsAroundMany count).world.state = Datatree.machineWith Datatree.bareContent from rfl,
    exec_bindings_of_not_cached rfl hBindings] at hState
  -- The mutations leave the cache alone.
  obtain ⟨second, hSecond, _, hOthers', hState', calls', hHistory', hCalls'⟩ :=
    hFirst.exec (P := fun _ => True) (hOthers 1 (by decide)) (only_mutateAll _)
      (fun _ _ _ _ hTrue => hTrue) trivial
  obtain ⟨memory, hAfter, hContent, hGeneration⟩ :=
    exec_mutateAll_replicate count first.world.state
  have hSecondState := hState'.trans hAfter
  -- The second call finds the generation of the entry.
  have hCached : second.world.state.cached .running second.world.state.memory.generation.running =
      some bindings := by
    rw [hSecondState]
    dsimp only
    rw [hGeneration, hRound, UInt64.add_zero, hState]
    rfl
  have hThread' : second.threads 2 =
      ((IndexActivity.bindings .running).program defaultRouter, fun _ => CallEnv.quiet) :=
    (hOthers' 2 (by decide)).trans (hOthers 2 (by decide))
  have hNamed : second.world.state.memory.running = Datatree.namedContent := by
    rw [hSecondState]
    dsimp only
    rw [hContent, hState]
    rfl
  obtain ⟨third, hThird, hReturned, _, _, own, hHistory'', hOwn⟩ :=
    hSecond.exec (P := fun state => state.memory.running = Datatree.namedContent) hThread'
      (only_bindings_program .running) (fun env request state hReads hState => by
        obtain ⟨bindCache, hAfter⟩ := handle_of_reads hReads (defaultRouter.options []) env state
        rw [hAfter]
        exact hState) hNamed
  rw [exec_bindings_of_cached hCached] at hReturned
  refine ⟨third, second.world.history, own, hThird, congrArg Prod.fst hReturned, hHistory'', ?_,
    fun event hEvent => (hOwn event hEvent).2⟩
  intro event hEvent
  have hNothing : (callsAroundMany count).world.history = [] := rfl
  rw [hHistory', hHistory, hNothing, List.nil_append] at hEvent
  rcases List.mem_append.mp hEvent with hEvent | hEvent
  · rw [(hCalls event hEvent).1]
    decide
  · rw [(hCalls' event hEvent).1]
    decide

/-- After `2 ^ 64` mutations the generation is the old one, and a call answers the bindings
of the old content, though the datastore holds the new one from before its first access
to after its last. -/
theorem bindings_are_stale_when_generation_comes_round :
    ∃ (system : System (Fin 3) Mutex Request Request.Response CallEnv (Machine Json.plain)
        (Option (Except Err (List Binding)))) (answer : List Binding)
      (earlier own : List (MachineEvent (Fin 3) Json.plain)),
      System.Reaches indexHandle (fun _ _ => True) (callsAroundMany (2 ^ 64 - 1)) system ∧
      (system.threads 2).1 = .ret (some (.ok answer)) ∧
      system.world.history = earlier ++ own ∧
      (∀ event ∈ earlier, event.thread ≠ 2) ∧
      (∀ event ∈ own, event.before.memory.running = Datatree.namedContent ∧
        event.after.memory.running = Datatree.namedContent) ∧
      defaultRouter.bindingsOf Datatree.namedContent ≠ .ok answer := by
  have hLengths : ((defaultRouter.bindingsOf Datatree.bareContent).toOption.map List.length,
      (defaultRouter.bindingsOf Datatree.namedContent).toOption.map List.length) =
        (some 1, some 2) := by
    decide +kernel
  rw [Prod.mk.injEq] at hLengths
  cases hBindings : defaultRouter.bindingsOf Datatree.bareContent with
  | error err =>
    rw [hBindings] at hLengths
    cases hLengths.1
  | ok answer =>
    obtain ⟨system, earlier, own, hReaches, hReturned, hHistory, hEarlier, hOwn⟩ :=
      exists_stale_answer hBindings (2 ^ 64 - 1) (by decide)
    refine ⟨system, answer, earlier, own, hReaches, hReturned, hHistory, hEarlier, hOwn, ?_⟩
    intro hSame
    rw [hBindings, hSame] at hLengths
    have hLength : some 1 = some 2 := hLengths.1.symm.trans hLengths.2
    cases hLength

end ComesRound

end TriadSim
