import TriadSim.Datatree.Alone
import TriadSim.Router.Components
import TriadSim.System.Switching

/-!
# Alternate ports

An alternate port must neither learn nor forward.  The inputs of the spanning-tree machine keep
to that: each of them writes a role together with a state that fits it.  A deadline does not:
the phase that it was armed with is applied to whatever role the port has when it is due, so a
tick moves an alternate port on to learning and then to forwarding.

The theorem, `alternates_block_in_safe_runs`, follows the leaves of running.  `Settles` says what
a step may do to them, and every step that meets its condition settles.
-/

namespace TriadSim
namespace L2

open Go Library Model Router Store Datatree

/-! ## The stored ports -/

/-- The path of the switch of the whole machine. -/
def enabledPath : GoString := stpPath "enabled"

/-- Spanning tree is enabled: the stored leaf says so, or that of the template in its place. -/
def SpanningTreeEnabled (r : Router) (running : Values) : Prop :=
  running[enabledPath]?.getD (.bool r.root.stp.enabled) = .bool true

/-- The state of a port: the stored one, or that of the template in its place. -/
def portState (r : Router) (running : Values) (port : GoString) : Option Leaf :=
  running[stpPortPath port "state"]?.or
    ((findSTPPort r.root.stp.ports port).map fun found => .string found.state)

/-- The states in which a port learns addresses or forwards frames. -/
def Passing (name : GoString) : Prop :=
  name = STPPhase.learning.text ∨ name = STPPhase.forwarding.text

/-- Whenever spanning tree is enabled, no port whose stored role is alternate learns or
forwards. -/
def AlternatesBlock (r : Router) (running : Values) : Prop :=
  SpanningTreeEnabled r running → ∀ port : GoString,
    running[stpPortPath port "role"]? = some (.string roleAlternate) →
      ∀ name, portState r running port = some (.string name) → ¬ Passing name

/-- What a step may do to the stored ports: leave a port alone, or store a role and a state that
fit each other. -/
structure Settles (before after : Values) : Prop where
  enabled : after[enabledPath]? = before[enabledPath]?
  ports : ∀ port : GoString,
    (after[stpPortPath port "role"]? = before[stpPortPath port "role"]? ∧
      after[stpPortPath port "state"]? = before[stpPortPath port "state"]?) ∨
    ∃ role name, after[stpPortPath port "role"]? = some (.string role) ∧
      after[stpPortPath port "state"]? = some (.string name) ∧
      (role = roleAlternate → ¬ Passing name)

theorem Settles.refl (content : Values) : Settles content content :=
  ⟨rfl, fun _ => Or.inl ⟨rfl, rfl⟩⟩

theorem Settles.trans {first second third : Values} (hFirst : Settles first second)
    (hSecond : Settles second third) : Settles first third := by
  refine ⟨hSecond.enabled.trans hFirst.enabled, fun port => ?_⟩
  rcases hSecond.ports port with ⟨hRole, hState⟩ | hStored
  · rw [hRole, hState]
    exact hFirst.ports port
  · exact Or.inr hStored

variable {r : Router} {port path : GoString}

variable {before after : Values} {role : GoString} {running : Values}

theorem AlternatesBlock.of_settles (hBlock : AlternatesBlock r before)
    (hSettles : Settles before after) :
    AlternatesBlock r after := by
  intro hEnabled port hRole name hName
  rw [SpanningTreeEnabled, hSettles.enabled] at hEnabled
  rcases hSettles.ports port with ⟨hSameRole, hSameState⟩ | ⟨role, state, hStored, hState, hFits⟩
  · rw [hSameRole] at hRole
    rw [portState, hSameState] at hName
    exact hBlock hEnabled port hRole name hName
  · cases hStored.symm.trans hRole
    rw [portState, hState] at hName
    cases hName
    exact hFits rfl

/-! ## Paths -/

theorem stpPortPath_eq (port leaf : GoString) :
    stpPortPath port leaf = (text "stp/state/ports/port[port=" ++ port ++ "]") ++ 47 :: leaf := by
  simp [stpPortPath, stpPrefix]
  rfl

theorem isPrefix_stpPortPath (port leaf : GoString) :
    text "stp/state/ports/" <+: stpPortPath port leaf := by
  rw [stpPortPath_eq]
  simp only [List.append_assoc]
  exact ⟨_, rfl⟩

theorem stpPortPath_injective {other leaf otherLeaf : GoString} (hLeaf : 47 ∉ leaf)
    (hOther : 47 ∉ otherLeaf) (hSame : stpPortPath port leaf = stpPortPath other otherLeaf) :
    port = other ∧ leaf = otherLeaf := by
  rw [stpPortPath_eq, stpPortPath_eq] at hSame
  obtain ⟨hEntry, hLeaves⟩ := append_slash_injective hLeaf hOther hSame
  exact ⟨List.append_cancel_left (List.append_cancel_right hEntry), hLeaves⟩

/-- The leaves that a statement about the stored ports looks at. -/
def Watched (path : GoString) : Prop :=
  path = enabledPath ∨ ∃ port, path = stpPortPath port "role" ∨ path = stpPortPath port "state"

theorem Settles.of_agreeOff {allowed : GoString → Prop} (hAgree : AgreeOff allowed before after)
    (hWatched : ∀ path, Watched path → ¬ allowed path) :
    Settles before after where
  enabled := hAgree _ (hWatched _ (Or.inl rfl))
  ports port := Or.inl ⟨hAgree _ (hWatched _ (Or.inr ⟨port, Or.inl rfl⟩)),
    hAgree _ (hWatched _ (Or.inr ⟨port, Or.inr rfl⟩))⟩

/-- Everything that is watched is below the spanning tree. -/
theorem isPrefix_of_watched (hWatched : Watched path) :
    text "stp/state/" <+: path := by
  rcases hWatched with rfl | ⟨port, rfl | rfl⟩
  · exact ⟨text "enabled", by decide⟩
  all_goals exact .trans ⟨text "ports/", by decide⟩ (isPrefix_stpPortPath port _)

theorem not_isPrefix_of_watched {lead : GoString}
    (hApart : ¬ (text "stp/state/" <+: lead ∨ lead <+: text "stp/state/"))
    (hWatched : Watched path) : ¬ lead <+: path :=
  fun hLead => hApart (List.prefix_or_prefix_of_prefix (isPrefix_of_watched hWatched) hLead)

theorem not_inMACTable_of_watched (hWatched : Watched path) : ¬ InMACTable path :=
  not_isPrefix_of_watched (by decide) hWatched

theorem not_inLLDP_of_watched (hWatched : Watched path) : ¬ InLLDP path :=
  not_isPrefix_of_watched (by decide) hWatched

/-! ## The write of a port -/

/-- The role and the state of a port are reached alike. -/
theorem resolve_stpPort (root : Device.fields.Vals) (key value : GoString) :
    resolve Device.fields root [⟨"stp", [], []⟩, ⟨"state", [], []⟩, ⟨"ports", [], []⟩,
        ⟨"port", key, value⟩, ⟨"role", [], []⟩] =
      resolve Device.fields root [⟨"stp", [], []⟩, ⟨"state", [], []⟩, ⟨"ports", [], []⟩,
        ⟨"port", key, value⟩, ⟨"state", [], []⟩] := by
  obtain ⟨systemInfo, interfaces, vlans, macTable, stp, rest⟩ := root
  rfl

/-- The leaves below the ports of the spanning tree are leaves of one port. -/
theorem shape_stpPort {shape : List ShapePart} (hShape : shape ∈ leafShapes Device.fields)
    (hLead : (shape.map Prod.fst).take 3 = [text "stp", text "state", text "ports"]) :
    (shape.map Prod.fst)[3]? = some (text "port") ∧ (shape.map Prod.fst).length = 5 := by
  revert shape
  decide +kernel

theorem locate_stpPort {canonical : GoString} {kind : LeafKind} {readOnly : Bool}
    (hLocate : r.locate (stpPortPath port "role") = .ok (canonical, kind, readOnly)) :
    r.locate (stpPortPath port "state") = .ok (stpPortPath port "state", kind, readOnly) := by
  obtain ⟨_, segments, hParse, hResolve⟩ := locate_eq_ok hLocate
  obtain ⟨shape, hShape, hNames⟩ := shape_of_leafAt_eq_some (leafAt_of_resolve_eq_ok hResolve)
  have hEntry : text "stp/state/ports/port[port=" ++ port ++ text "]" =
      text "stp/state/ports" ++ 47 :: (text "port[port=" ++ port ++ text "]") := by
    simp only [List.append_assoc]
    rfl
  have hRole : parse (text "role") = .ok [⟨"role", [], []⟩] := by decide
  have hState : parse (text "state") = .ok [⟨"state", [], []⟩] := by decide
  have hPorts : parse (text "stp/state/ports") =
      .ok [⟨"stp", [], []⟩, ⟨"state", [], []⟩, ⟨"ports", [], []⟩] := by decide
  -- The path is that of the ports, of one entry and of the leaf.
  rw [stpPortPath_eq, hEntry] at hParse
  obtain ⟨_, _, hLeft, hRight, rfl⟩ := parse_append_slash.mp hParse
  obtain ⟨_, rest, hBase, hRest, rfl⟩ := parse_append_slash.mp hLeft
  cases hRole.symm.trans hRight
  cases hPorts.symm.trans hBase
  obtain ⟨hName, hLength⟩ := shape_stpPort hShape (by rw [hNames]; rfl)
  rw [hNames] at hName hLength
  obtain ⟨⟨name, key, value⟩, rfl⟩ : ∃ segment, rest = [segment] :=
    List.length_eq_one_iff.mp (by simpa using hLength)
  cases Option.some.inj hName
  have hParsed : parse (stpPortPath port "state") = .ok ([⟨"stp", [], []⟩, ⟨"state", [], []⟩,
      ⟨"ports", [], []⟩, ⟨"port", key, value⟩, ⟨"state", [], []⟩]) := by
    rw [stpPortPath_eq, hEntry]
    exact parse_append_slash.mpr ⟨_, _, hLeft, hState, rfl⟩
  have hFound := (resolve_stpPort r.root.toVals key value).symm.trans hResolve
  unfold locate
  simp only [hParsed, hFound, pathText_of_parse_eq_ok hParsed]

/-- A router that takes the states of ports as they are. -/
def KeepsStates (r : Router) : Prop :=
  ∀ port name : GoString, r.decode (stpPortPath port "state") (.leaf (.string name)) =
    .ok (.leaf (.string name))

/-- A port whose role can be written has a state that can be written. -/
theorem exists_convert_state (hStates : KeepsStates r) {converted : Result}
    (hConvert : r.convert (stpPortPath port "role") (.leaf (.string role)) = .ok converted)
    (name : GoString) :
    converted.value = .string role ∧
      ∃ other, r.convert (stpPortPath port "state") (.leaf (.string name)) = .ok other ∧
        other.value = .string name ∧ validPath (stpPortPath port "state") = true := by
  have hRole := value_of_convertTo_string_eq_ok hConvert
  obtain ⟨kind, decoded, coerced, hLocate, _, hCoerce, rfl⟩ := convert_eq_ok hConvert
  have hState := locate_stpPort hLocate
  obtain ⟨_, segments, hParse, hResolve⟩ := locate_eq_ok hState
  have hValid : validPath (stpPortPath port "state") = true :=
    validPath_of_leafPath ⟨segments, hParse, by rw [leafAt_of_resolve_eq_ok hResolve]; rfl⟩
  rw [result_value] at hRole
  -- The role is a string, so the kind of the two leaves is.
  cases kind with
  | string =>
    refine ⟨by rwa [result_value], r.result (stpPortPath port "state") (.string name) true, ?_,
      result_value .., hValid⟩
    rw [convert, convertTo, hState]
    show (r.decode _ _ >>= r.coerceAt _ .string) = _
    rw [hStates]
    rfl
  | _ => cases hRole

/-- A role and a state that fit each other, stored for a port. -/
theorem settles_insert {name : GoString} (hFits : role = roleAlternate → ¬ Passing name) :
    Settles running ((running.insert (stpPortPath port "role") (.string role)).insert
      (stpPortPath port "state") (.string name)) := by
  have hApart : ∀ other, stpPortPath port "state" ≠ stpPortPath other "role" := by
    intro other hSame
    exact absurd (stpPortPath_injective (by decide) (by decide) hSame).2 (by decide)
  have hEnabled : ∀ leaf, stpPortPath port leaf ≠ enabledPath := by
    intro leaf hSame
    have hLead := isPrefix_stpPortPath port leaf
    rw [hSame] at hLead
    revert hLead
    decide +kernel
  refine ⟨by rw [FinMap.getElem?_insert_ite, if_neg (hEnabled _), FinMap.getElem?_insert_ite,
    if_neg (hEnabled _)], fun other => ?_⟩
  by_cases hPort : port = other
  · subst hPort
    refine Or.inr ⟨role, name, ?_, ?_, hFits⟩
    · rw [FinMap.getElem?_insert_ite, if_neg (hApart _), FinMap.getElem?_insert_ite, if_pos rfl]
    · rw [FinMap.getElem?_insert_ite, if_pos rfl]
  · have hOther : ∀ {leaf otherLeaf : GoString}, 47 ∉ leaf → 47 ∉ otherLeaf →
        stpPortPath port leaf ≠ stpPortPath other otherLeaf :=
      fun hLeaf hOtherLeaf hSame => hPort (stpPortPath_injective hLeaf hOtherLeaf hSame).1
    refine Or.inl ⟨?_, ?_⟩
    all_goals
      rw [FinMap.getElem?_insert_ite, if_neg (hOther (by decide) (by decide)),
        FinMap.getElem?_insert_ite, if_neg (hOther (by decide) (by decide))]

section Live

variable {json : Json} {opts : Options} {machine : Machine json} {r : Router} {α : Type}

theorem ensures_live_during {context : GoString} {step : Prog (Except Err α)}
    {post : Except Err α → Machine json → Prop}
    (hStep : step.LiveEnsures opts
      (fun result after => post (result.mapError (inContext context)) after) machine) :
    (during context step).LiveEnsures opts post machine := by
  refine Program.Ensures.bind hStep ?_
  intro result after hResult
  cases result with
  | error err | ok value => exact hResult

theorem ensures_live_mutate {op : Mutation} {post : Except Err Unit → Machine json → Prop}
    (hPost : ∀ env : CallEnv, env.ctx = none → post (machine.memory.mutate opts env op).1
      { machine with memory := (machine.memory.mutate opts env op).2 }) :
    (ask (.mutate op)).LiveEnsures opts post machine :=
  fun env => hPost env.1 env.2

/-- A leaf is written if the router converts the value and the store accepts the path. -/
theorem ensures_live_set {path : GoString} {leaf : Leaf} :
    (r.set .running path (.leaf leaf)).LiveEnsures opts (fun result after =>
      (∃ err, result = .error err ∧ after.memory.running = machine.memory.running ∧
        ∀ converted, r.convert path (.leaf leaf) = .ok converted → validPath path = false) ∨
      ∃ converted, r.convert path (.leaf leaf) = .ok converted ∧ validPath path = true ∧
        result = .ok converted ∧
        after.memory.running = machine.memory.running.insert path converted.value) machine := by
  refine ensures_live_checkCtx (ensures_andThen ⟨?_, ?_⟩)
  · intro converted hConvert
    refine ensures_andThen (ensures_live_mutate fun env hLive => ?_)
    rw [path_of_convert_eq_ok hConvert]
    simp only [Memory.mutate, Memory.set, hLive]
    cases hValid : validPath path with
    | false =>
      refine ⟨fun _ hOk => (by cases hOk), fun err _ => Or.inl ⟨err, rfl, rfl, ?_⟩⟩
      exact fun _ _ => rfl
    | true =>
      refine ⟨fun _ _ => Or.inr ⟨converted, hConvert, rfl, rfl, ?_⟩,
        fun _ hError => (by cases hError)⟩
      show (Memory.recordWrite opts env .running [path] (machine.memory.edit .running
        fun values => values.insert path converted.value)).contents.running = _
      rw [Memory.contents_recordWrite]
      rfl
  · intro err hError
    exact Or.inl ⟨err, rfl, rfl, fun converted hConvert => by cases hConvert.symm.trans hError⟩

/-- The write of a port stores a role and a state, or nothing. -/
theorem ensures_live_setSTPPort (hStates : KeepsStates r) {state : STPState}
    {port role name : GoString} (hFits : role = roleAlternate → ¬ Passing name) :
    (setSTPPort r state port role name).LiveEnsures opts (fun result after =>
      Settles machine.memory.running after.memory.running ∧ ∀ next, result = .ok next →
        next = { state with ports := updatePort port role name state.ports }) machine := by
  refine ensures_andThen (ensures_live_during (ensures_live_set.mono ?_))
  rintro result after (⟨err, rfl, hSame, _⟩ | ⟨converted, hConvert, _, rfl, hRole⟩)
  · refine ⟨fun _ hOk => (by cases hOk), fun _ _ => ⟨?_, fun _ hOk => by cases hOk⟩⟩
    rw [hSame]
    exact Settles.refl _
  · refine ⟨fun _ _ => ?_, fun _ hError => by cases hError⟩
    obtain ⟨hValue, other, hOther, hName, hValid⟩ := exists_convert_state hStates hConvert name
    refine ensures_andThen (ensures_live_during (ensures_live_set.mono ?_))
    rintro last final (⟨err, rfl, _, hFails⟩ | ⟨found, hFound, _, rfl, hState⟩)
    · cases (hFails other hOther).symm.trans hValid
    · refine ⟨fun _ _ => ⟨?_, fun next hNext => by cases hNext; rfl⟩,
        fun _ hError => by cases hError⟩
      cases hOther.symm.trans hFound
      rw [hState, hRole, hValue, hName]
      exact settles_insert hFits

end Live

/-! ## Transitions -/

section Steps

variable {json : Json} {opts : Options} {r : Router} {delay now : Time}

/-- A step from one state of the process to another settles the stored ports. -/
def SettlesTo (before after : Machine json) : Prop :=
  Settles before.memory.running after.memory.running

/-- A program that settles the stored ports, however it ends. -/
abbrev ProgSettles {α : Type} (opts : Options) (program : Prog α) (machine : Machine json) : Prop :=
  program.LiveEnsures opts (fun _ last => SettlesTo machine last) machine

variable {phase : STPPhase}

theorem not_passing_stateName {protocol : GoString} (hLearning : phase ≠ .learning)
    (hForwarding : phase ≠ .forwarding) :
    ¬ Passing (stateName protocol phase) := by
  cases phase with
  | learning => exact absurd rfl hLearning
  | forwarding => exact absurd rfl hForwarding
  | _ =>
    unfold stateName
    split <;> (unfold Passing; decide)

/-- A role that a port can take together with a phase. -/
def RoleFits (role : GoString) (phase : STPPhase) : Prop :=
  role = roleAlternate → phase ≠ .learning ∧ phase ≠ .forwarding

variable {role : GoString} {event : STPEvent} {pending : Pending} {ports : List STPPort}

/-- A transition to a role and a phase that fit settles, and changes one port of the snapshot at
most. -/
theorem ensures_live_transition (hStates : KeepsStates r) {port : GoString}
    (hFits : RoleFits role phase) (work : Working) (machine : Machine json) :
    (transition r delay now port role phase work).LiveEnsures opts (fun stepped after =>
      SettlesTo machine after ∧ (stepped.2.state.ports = work.state.ports ∨
        stepped.2.state.ports = updatePort port role (stateName work.state.protocol phase)
          work.state.ports)) machine := by
  unfold transition
  dsimp only
  split
  · exact ⟨Settles.refl _, Or.inl rfl⟩
  · refine Program.Ensures.bind (ensures_live_setSTPPort hStates fun hRole =>
      not_passing_stateName (hFits hRole).1 (hFits hRole).2) ?_
    rintro (err | next) after ⟨hSettles, hNext⟩
    · exact ⟨hSettles, Or.inl rfl⟩
    · cases hNext next rfl
      exact ⟨hSettles, Or.inr rfl⟩

/-- Two steps that settle, one after the other. -/
theorem ensures_live_continued (keeps : Working → Prop) {step : Prog Stepped}
    {next : Working → Prog Stepped} {machine : Machine json}
    (hStep : step.LiveEnsures opts (fun stepped after =>
      SettlesTo machine after ∧ keeps stepped.2) machine)
    (hNext : ∀ work (after : Machine json), keeps work → ProgSettles opts (next work) after) :
    ProgSettles opts (continued step next) machine := by
  refine Program.Ensures.bind hStep ?_
  rintro ⟨err | done, work⟩ after ⟨hSettles, hKeeps⟩
  · exact hSettles
  · refine (hNext work after hKeeps).mono ?_
    exact fun _ _ hLast => Settles.trans hSettles hLast

/-- The loop of an election, by induction on what is left of the ports. -/
theorem ensures_live_electOthers (hStates : KeepsStates r) {receiver : GoString}
    (hFits : RoleFits role phase) (ports : List STPPort) (work : Working) (machine : Machine json) :
    ProgSettles opts (electOthers r delay now receiver role phase ports work) machine := by
  induction ports generalizing work machine with
  | nil => exact Settles.refl _
  | cons other rest ih =>
    unfold electOthers
    split
    · exact ih work machine
    · refine ensures_live_continued (fun _ => True) ?_ fun next after _ => ih next after
      exact (ensures_live_transition hStates hFits work machine).mono
        fun _ _ hStep => ⟨hStep.1, trivial⟩

/-- A write below a path that is not watched settles. -/
theorem ensures_live_settles_of_only {α : Type} {program : Prog α} {allowed : GoString → Prop}
    {locks : Mutex → Prop} {returns : α → Prop}
    (hOnly : program.Only (Request.WritesAt allowed) locks returns)
    (hWatched : ∀ path, Watched path → ¬ allowed path) (machine : Machine json) :
    ProgSettles opts program machine :=
  ((ensures_agreeOff hOnly machine).comap _).mono
    fun _ _ hAgree => Settles.of_agreeOff hAgree.2 hWatched

/-- The record of an election is not watched. -/
theorem not_eq_of_watched {path : GoString} (hWatched : Watched path) :
    ¬ (path = stpPath "root-id" ∨ path = stpPath "root-cost") := by
  have hApart : ∀ port leaf : GoString,
      ¬ (stpPortPath port leaf = stpPath "root-id" ∨
        stpPortPath port leaf = stpPath "root-cost") := by
    rintro port leaf (hSame | hSame)
    all_goals
      have hLead := isPrefix_stpPortPath port leaf
      rw [hSame] at hLead
      revert hLead
      decide +kernel
  rcases hWatched with rfl | ⟨port, rfl | rfl⟩
  · decide +kernel
  · exact hApart port _
  · exact hApart port _

theorem ensures_live_elect (hStates : KeepsStates r) {port : STPPort} (work : Working)
    (machine : Machine json) :
    ProgSettles opts (elect r delay now event port work) machine := by
  have hRecord : ∀ rootID rootCost,
      ProgSettles opts (andThen (state r (stpPath "root-id") (.string rootID)) fun () =>
        state r (stpPath "root-cost") (.uint32 rootCost)) machine := by
    intro rootID rootCost
    have hOnly : (andThen (state r (stpPath "root-id") (.string rootID)) fun () =>
        state r (stpPath "root-cost") (.uint32 rootCost)).Only
          (Request.WritesAt fun path => path = stpPath "root-id" ∨ path = stpPath "root-cost")
          (fun _ => True) fun _ => True :=
      only_andThen (fun _ => True) (only_state (Or.inl rfl)) (fun _ _ => only_state (Or.inr rfl))
        fun _ => trivial
    exact ensures_live_settles_of_only hOnly (fun _ => not_eq_of_watched) machine
  unfold elect
  dsimp only
  refine Program.Ensures.bind (hRecord _ _) ?_
  rintro (err | done) after hSettles
  · exact hSettles
  · refine Program.Ensures.mono (ensures_live_continued (fun _ => True) ?_ fun next last _ => ?_)
      fun _ _ hLast => Settles.trans hSettles hLast
    · refine (ensures_live_electOthers hStates ?_ _ _ after).mono fun _ _ hStep => ⟨hStep, trivial⟩
      -- The other ports of a bridge that is not the root become alternate and blocking.
      split
      · exact fun _ => ⟨by decide, by decide⟩
      · exact fun hRole => absurd hRole (by decide)
    · refine (ensures_live_transition hStates ?_ next last).mono fun _ _ hStep => hStep.1
      intro hRole
      split at hRole <;> exact absurd hRole (by decide)

theorem ensures_live_snapshot {context : GoString} (machine : Machine json) :
    (during context (r.snapshot .running)).LiveEnsures opts (SnapshotOf r machine) machine := by
  have hSnapshot : (during context (r.snapshot .running)).Ensures opts (SnapshotOf r machine)
      machine := ensures_snapshot_during
  exact hSnapshot.comap _

/-- Every input of the machine settles. -/
theorem ensures_live_handle (hStates : KeepsStates r) (machine : Machine json) :
    ProgSettles opts (handle r delay now event pending) machine := by
  unfold handle
  split
  · exact Settles.refl _
  refine Program.Ensures.locked (Program.Ensures.bind (ensures_live_snapshot machine) ?_)
  rintro (err | device) after ⟨rfl, _⟩
  · exact Settles.refl _
  dsimp only
  split
  · exact Settles.refl _
  split
  · exact Settles.refl _
  · next port _ =>
    refine Program.Ensures.bind ?_ fun _ _ hStep => hStep
    have hStep : ∀ {role : GoString} {phase : STPPhase}, RoleFits role phase →
        ProgSettles opts (transition r delay now port.port role phase ⟨device.stp, pending⟩)
          after :=
      fun hFits => (ensures_live_transition hStates hFits _ after).mono fun _ _ hStep => hStep.1
    cases event.kind with
    | linkDown => exact hStep fun _ => ⟨by decide, by decide⟩
    | linkUp => exact hStep fun hRole => absurd hRole (by decide)
    | bpdu => exact ensures_live_elect hStates _ after
    | unknown name => exact Settles.refl _

/-! ## Forward delays -/

/-- The roles of a snapshot are those of another one. -/
def SameRoles (ports others : List STPPort) : Prop :=
  ∀ port, (findSTPPort ports port).map STPPort.role = (findSTPPort others port).map STPPort.role

theorem SameRoles.trans {first second third : List STPPort} (hFirst : SameRoles first second)
    (hSecond : SameRoles second third) : SameRoles first third :=
  fun port => (hFirst port).trans (hSecond port)

/-- A new state for a port that keeps its role. -/
theorem sameRoles_updatePort {port name : GoString} {current : STPPort}
    (hFound : findSTPPort ports port = some current) :
    SameRoles (updatePort port current.role name ports) ports := by
  induction ports with
  | nil => cases hFound
  | cons candidate rest ih =>
    intro other
    unfold findSTPPort at hFound ⊢
    by_cases hPort : candidate.port = port
    · rw [List.find?_cons_of_pos (by simpa using hPort)] at hFound
      have hCurrent : candidate = current := Option.some.inj hFound
      subst hCurrent
      rw [updatePort, if_pos hPort]
      by_cases hOther : candidate.port = other
      · rw [List.find?_cons_of_pos (by simpa using hOther),
          List.find?_cons_of_pos (by simpa using hOther)]
        rfl
      · rw [List.find?_cons_of_neg (by simpa using hOther),
          List.find?_cons_of_neg (by simpa using hOther)]
    · rw [List.find?_cons_of_neg (by simpa using hPort)] at hFound
      rw [updatePort, if_neg hPort]
      by_cases hOther : candidate.port = other
      · rw [List.find?_cons_of_pos (by simpa using hOther),
          List.find?_cons_of_pos (by simpa using hOther)]
      · rw [List.find?_cons_of_neg (by simpa using hOther),
          List.find?_cons_of_neg (by simpa using hOther)]
        exact ih hFound other

/-- No port of a list of deadlines is alternate. -/
def NoAlternateDue (ports : List STPPort) (due : List (GoString × STPDeadline)) : Prop :=
  ∀ entry ∈ due, ∀ found, findSTPPort ports entry.1 = some found → found.role ≠ roleAlternate

/-- The deadlines of ports that are not alternate, by induction on what is left of them; the
snapshot keeps the roles that it began with. -/
theorem ensures_live_advanceDue (hStates : KeepsStates r) (due : List (GoString × STPDeadline))
    (hDue : NoAlternateDue ports due) (work : Working) (hRoles : SameRoles work.state.ports ports)
    (machine : Machine json) :
    ProgSettles opts (advanceDue r delay now due work) machine := by
  induction due generalizing work machine with
  | nil => exact Settles.refl _
  | cons entry rest ih =>
    obtain ⟨port, deadline⟩ := entry
    have hRest : NoAlternateDue ports rest :=
      fun other hOther => hDue other (List.mem_cons_of_mem _ hOther)
    unfold advanceDue
    dsimp only
    split
    · exact ih hRest ⟨work.state, work.pending.erase port⟩ hRoles machine
    · next current hCurrent =>
      have hRole : current.role ≠ roleAlternate := by
        have hSame := hRoles port
        rw [hCurrent] at hSame
        obtain ⟨found, hFound, hFoundRole⟩ := Option.map_eq_some_iff.mp hSame.symm
        rw [← hFoundRole]
        exact hDue _ List.mem_cons_self found hFound
      refine ensures_live_continued (fun next => SameRoles next.state.ports ports) ?_
        fun next after hNext => ih hRest next hNext after
      refine (ensures_live_transition hStates (fun hAlternate => absurd hAlternate hRole) _
        machine).mono ?_
      rintro stepped after ⟨hSettles, hPorts | hPorts⟩
      · refine ⟨hSettles, ?_⟩
        rw [hPorts]
        exact hRoles
      · refine ⟨hSettles, ?_⟩
        rw [hPorts]
        exact (sameRoles_updatePort hCurrent).trans hRoles

theorem ensures_live_advanceSTP (hStates : KeepsStates r) (machine : Machine json)
    (hDue : ∀ device, deviceFromValues r.root machine.memory.running = .ok device →
      device.stp.enabled = true →
      NoAlternateDue device.stp.ports (dueDeadlines pending now)) :
    ProgSettles opts (advanceSTP r delay now pending) machine := by
  unfold advanceSTP
  split
  · exact Settles.refl _
  refine Program.Ensures.bind (ensures_live_snapshot machine) ?_
  rintro (err | device) after ⟨rfl, hDevice⟩
  · exact Settles.refl _
  dsimp only
  split
  · exact Settles.refl _
  · next hEnabled =>
    refine Program.Ensures.bind (ensures_live_advanceDue hStates _
      (hDue device (hDevice device rfl) (by simpa using hEnabled)) _ (fun _ => rfl) after)
      fun _ _ hStep => hStep

/-! ## Ticks -/

/-- A sweep only moves the MAC table, and nothing if running describes no device. -/
theorem ensures_live_age {lastAging : Option Time} (machine : Machine json) :
    (age r lastAging now).LiveEnsures opts (fun _ after =>
      after.memory.running = machine.memory.running ∨
      (∃ device, deviceFromValues r.root machine.memory.running = .ok device) ∧
        AgreeOff InMACTable machine.memory.running after.memory.running) machine := by
  unfold age
  split
  · exact Or.inl rfl
  refine ensures_andThen ((ensures_live_snapshot machine).mono ?_)
  rintro result after ⟨rfl, hDevice⟩
  refine ⟨fun device hResult => ?_, fun _ _ => Or.inl rfl⟩
  have hOnly : (ageEntries r device.macTable.agingTime (elapsedSeconds lastAging now) 0
      device.macTable.entries).Only (Request.WritesAt InMACTable) (fun _ => True) fun _ => True :=
    only_ageEntries _ 0
  refine ((ensures_agreeOff hOnly after).comap _).mono ?_
  exact fun _ _ hAgree => Or.inr ⟨⟨device, hDevice device hResult⟩, hAgree.2⟩

/-- The spanning tree of a device does not depend on the MAC table. -/
theorem stp_of_agreeOff {template first second : Device} {before after : Values}
    (hAgree : AgreeOff InMACTable before after)
    (hSome : ∃ path : GoString, path ∈ before ∧ ¬ InMACTable path)
    (hFirst : deviceFromValues template before = .ok first)
    (hSecond : deviceFromValues template after = .ok second) : second.stp = first.stp := by
  obtain ⟨path, hPath, hOutside⟩ := hSome
  obtain ⟨firstVals, hFirstVals, rfl⟩ := map_eq_ok_iff.mp hFirst
  obtain ⟨secondVals, hSecondVals, rfl⟩ := map_eq_ok_iff.mp hSecond
  have hLeaf : ∀ {content : Values}, path ∈ content → content.isEmpty = false := by
    intro content hMem
    refine Std.ExtTreeMap.isEmpty_eq_false_iff.mpr fun hNone => ?_
    rw [hNone] at hMem
    exact Std.ExtTreeMap.not_mem_empty hMem
  have hStored : path ∈ after := by
    rw [FinMap.mem_iff_isSome, hAgree path hOutside, ← FinMap.mem_iff_isSome]
    exact hPath
  have hSame : ∀ other : GoString, text "stp" <+: other → after[other]? = before[other]? := by
    intro other hOther
    refine hAgree other fun hTable => ?_
    rcases List.prefix_or_prefix_of_prefix hOther hTable with hLead | hLead
    all_goals
      revert hLead
      decide
  have hTag : tagAt Device.fields 4 = some ⟨[text "stp", text "state"], false, false, false⟩ := rfl
  have hField := fieldAt_of_hydrate_eq_ok hTag rfl (by decide) hSecondVals hFirstVals
    (hLeaf hStored) (hLeaf hPath) hSame
  obtain ⟨_, _, _, _, firstStp, _⟩ := firstVals
  obtain ⟨_, _, _, _, secondStp, _⟩ := secondVals
  have hStp : secondStp = firstStp := by
    cases hField
    rfl
  exact congrArg STPState.ofVals hStp

/-- A tick that no alternate port is due for: the deadlines that are reached belong to ports that
the rebuilt device does not show as alternate, and running holds more than MAC addresses, so that
a sweep cannot leave it empty. -/
def TickSafe (r : Router) (running : Values) (pending : Pending) (now : Time) : Prop :=
  dueDeadlines pending now ≠ [] →
    (∃ path : GoString, path ∈ running ∧ ¬ InMACTable path) ∧
    ∀ device, deviceFromValues r.root running = .ok device → device.stp.enabled = true →
      NoAlternateDue device.stp.ports (dueDeadlines pending now)

theorem ensures_live_tick (hStates : KeepsStates r) {manager : Manager} (machine : Machine json)
    (hSafe : TickSafe r machine.memory.running manager.stpPending now) :
    ProgSettles opts (tick r delay now manager) machine := by
  refine Program.Ensures.locked (Program.Ensures.bind (ensures_live_age machine) ?_)
  intro aged swept hSwept
  have hSettled : SettlesTo machine swept := by
    rcases hSwept with hSame | ⟨_, hAgree⟩
    · rw [SettlesTo, hSame]
      exact Settles.refl _
    · exact Settles.of_agreeOff hAgree fun _ => not_inMACTable_of_watched
  -- The sweep does not touch the ports that the forward delays look at.
  have hDue : ∀ device, deviceFromValues r.root swept.memory.running = .ok device →
      device.stp.enabled = true →
      NoAlternateDue device.stp.ports (dueDeadlines manager.stpPending now) := by
    intro device hDevice hEnabled entry hEntry
    obtain ⟨hSome, hAlternates⟩ := hSafe (List.ne_nil_of_mem hEntry)
    rcases hSwept with hSame | ⟨⟨earlier, hEarlier⟩, hAgree⟩
    · rw [hSame] at hDevice
      exact hAlternates device hDevice hEnabled entry hEntry
    · have hStp := stp_of_agreeOff hAgree hSome hEarlier hDevice
      rw [hStp] at hEnabled ⊢
      exact hAlternates earlier hEarlier hEnabled entry hEntry
  refine Program.Ensures.bind (ensures_live_advanceSTP hStates swept hDue) ?_
  rintro ⟨advanced, pending⟩ moved hMoved
  have hOnly : (refreshLLDP r).Only (Request.WritesAt InLLDP) (fun _ => True) fun _ => True :=
    only_refreshLLDP
  refine Program.Ensures.bind (ensures_live_settles_of_only hOnly
    (fun _ => not_inLLDP_of_watched) moved) ?_
  exact fun _ _ hRefreshed => (Settles.trans hSettled hMoved).trans hRefreshed

end Steps

/-! ## Runs -/

/-- A bridge: the process and what the manager remembers. -/
structure Bridge (json : Json) where
  machine : Machine json
  manager : Manager

/-- What drives the machine: an input, or a tick. -/
inductive Drive where
  | input (event : STPEvent)
  | tick

/-- One step of a bridge at a reading of the clock. -/
def Drive.step {json : Json} (opts : Options) (r : Router) (delay now : Time)
    (env : Nat → CallEnv) (bridge : Bridge json) : Drive → Bridge json
  | input event =>
    let done := (handle r delay now event bridge.manager.stpPending).run opts env bridge.machine
    ⟨done.2, { bridge.manager with stpPending := done.1.2 }⟩
  | tick =>
    let done := (L2.tick r delay now bridge.manager).run opts env bridge.machine
    ⟨done.2, done.1.2⟩

/-- The condition on a step: nothing cancels it, and a tick finds no alternate port due. -/
structure Drive.Safe {json : Json} (r : Router) (now : Time) (env : Nat → CallEnv)
    (bridge : Bridge json) (drive : Drive) : Prop where
  live : ∀ index, (env index).ctx = none
  ticks : drive = .tick → TickSafe r bridge.machine.memory.running bridge.manager.stpPending now

/-- The runs of a bridge: inputs and ticks at readings of the clock that do not decrease, each of
them safe. -/
inductive SafeRun {json : Json} (opts : Options) (r : Router) (delay : Time) (start : Bridge json) :
    Time → Bridge json → Prop
  | start (now : Time) : SafeRun opts r delay start now start
  | step {last now : Time} {bridge : Bridge json} (drive : Drive) (env : Nat → CallEnv)
      (hRun : SafeRun opts r delay start last bridge) (hNow : last ≤ now)
      (hSafe : drive.Safe r now env bridge) :
      SafeRun opts r delay start now (drive.step opts r delay now env bridge)

theorem settlesTo_step {json : Json} {opts : Options} {delay now : Time} (hStates : KeepsStates r)
    {env : Nat → CallEnv} {bridge : Bridge json} {drive : Drive}
    (hSafe : drive.Safe r now env bridge) :
    SettlesTo bridge.machine (drive.step opts r delay now env bridge).machine := by
  cases drive with
  | input event =>
    exact Prog.LiveEnsures.run (ensures_live_handle hStates bridge.machine) env hSafe.live
  | tick =>
    exact Prog.LiveEnsures.run (ensures_live_tick hStates bridge.machine (hSafe.ticks rfl)) env
      hSafe.live

/-- No object of the default device that decodes stands at a leaf of the spanning tree. -/
theorem keepsStates_defaultRouter : KeepsStates defaultRouter := by
  have hPlain : ∀ object ∈ defaultRouter.objects,
      text "stp" <+: object.path → object.decode = none := by
    decide +kernel
  intro port name
  have hNone : (objectAt defaultRouter.objects (stpPortPath port "state")).bind
      IndexedObject.decode = none := by
    cases hObject : objectAt defaultRouter.objects (stpPortPath port "state") with
    | none => rfl
    | some object =>
      obtain ⟨hMem, hPath⟩ := mem_of_objectAt_eq_some hObject
      have hLead : text "stp" <+: text "stp/state/ports/" := by decide
      refine hPlain object hMem (hLead.trans ?_)
      rw [hPath]
      exact isPrefix_stpPortPath port _
  rw [decode, hNone]

/-- In every run whose steps are safe, alternate ports neither learn nor forward, if they do not in
the state that the run starts from. -/
theorem alternates_block_in_safe_runs {json : Json} (opts : Options) (delay : Time)
    (start : Bridge json)
    (hStart : AlternatesBlock defaultRouter start.machine.memory.running) (now : Time)
    (bridge : Bridge json) (hRun : SafeRun opts defaultRouter delay start now bridge) :
    AlternatesBlock defaultRouter bridge.machine.memory.running := by
  induction hRun with
  | start now => exact hStart
  | step drive env hRun hNow hSafe ih =>
    exact ih.of_settles (settlesTo_step keepsStates_defaultRouter hSafe)

/-- The two ports of the default device, with the roles and the states of the template. -/
def bridgeContent : Values :=
  Std.ExtTreeMap.ofList
    [(stpPortPath "eth0" "port", Leaf.string "eth0"), (stpPortPath "eth0" "role", .string "root"),
      (stpPortPath "eth0" "state", .string "forwarding"),
      (stpPortPath "eth1" "port", .string "eth1"), (stpPortPath "eth1" "role", .string "alternate"),
      (stpPortPath "eth1" "state", .string "discarding")] compare

/-- A bridge that has just booted. -/
def bootedBridge : Bridge Json.plain :=
  ⟨machineWith bridgeContent, ⟨none, ∅⟩⟩

/-- A better bridge is heard on a port. -/
def betterBridge (port : GoString) : Drive :=
  .input ⟨.bpdu, port, "01:00:00:00:00:01", 4096, 10⟩

/-- Drive a bridge through steps, with the default forward delay of 15 seconds. -/
def driven (steps : List (Time × Drive)) (bridge : Bridge Json.plain) : Bridge Json.plain :=
  steps.foldl (fun bridge step => step.2.step (defaultRouter.options []) defaultRouter
    15000000000 step.1 (fun _ => CallEnv.quiet) bridge) bridge

/-- One more step after the steps that have driven a bridge. -/
theorem SafeRun.driven (bridge : Bridge Json.plain) (steps : List (Time × Drive)) {last : Time}
    (now : Time) (drive : Drive)
    (hRun : SafeRun (defaultRouter.options []) defaultRouter 15000000000 bridge last
      (L2.driven steps bridge))
    (hNow : last ≤ now)
    (hSafe : drive.Safe defaultRouter now (fun _ => CallEnv.quiet) (L2.driven steps bridge)) :
    SafeRun (defaultRouter.options []) defaultRouter 15000000000 bridge now
      (L2.driven (steps ++ [(now, drive)]) bridge) := by
  rw [L2.driven, List.foldl_append]
  exact hRun.step drive _ hNow hSafe

/-- Whether every alternate port of a content has a stored state in which it blocks. -/
def alternatesBlocked (running : Values) : Bool :=
  running.toList.all fun entry =>
    entry.2 ≠ .string roleAlternate ||
      match running[entry.1.take (entry.1.length - 4) ++ text "state"]? with
      | some (.string name) => name ≠ STPPhase.learning.text && name ≠ STPPhase.forwarding.text
      | _ => false

theorem alternatesBlock_of_alternatesBlocked (hBlocked : alternatesBlocked running = true) :
    AlternatesBlock r running := by
  intro _ port hRole name hName
  have hEntry := List.all_eq_true.mp hBlocked _
    (Std.ExtTreeMap.mem_toList_iff_getElem?_eq_some.mpr hRole)
  have hState : (stpPortPath port "role").take ((stpPortPath port "role").length - 4) ++
      text "state" = stpPortPath port "state" := by
    have hLead : ∀ leaf, stpPortPath port leaf =
        (stpPrefix ++ text "/ports/port[port=" ++ port ++ text "]/") ++ leaf := fun _ => rfl
    rw [hLead "role", hLead "state", List.length_append,
      show (text "role").length = 4 from by decide, Nat.add_sub_cancel, List.take_left]
  dsimp only at hEntry
  rw [hState] at hEntry
  cases hStored : running[stpPortPath port "state"]? with
  | none =>
    rw [hStored] at hEntry
    simp at hEntry
  | some leaf =>
    rw [portState, hStored] at hName
    cases hName
    rw [hStored] at hEntry
    simpa [Passing, not_or] using hEntry

/-- The link of a port comes up. -/
def linkUp (port : GoString) : Drive :=
  .input ⟨.linkUp, port, [], 0, 0⟩

/-- The link of eth0 comes up.  After the forward delay eth0 learns, and the alternate port eth1
still blocks. -/
theorem alternate_port_blocks_after_delay :
    let bridge := driven [(0, linkUp "eth0"), (15000000000, .tick)] bootedBridge
    bridge.machine.memory.running[stpPortPath "eth0" "state"]? = some (.string "learning") ∧
      AlternatesBlock defaultRouter bridge.machine.memory.running := by
  refine ⟨by decide +kernel, ?_⟩
  have hUp := SafeRun.driven bootedBridge [] 0 (linkUp "eth0") (.start 0) (le_refl 0)
    ⟨fun _ => rfl, fun hTick => by cases hTick⟩
  have hDue : ((deviceFromValues defaultRouter.root
      (driven [(0, linkUp "eth0")] bootedBridge).machine.memory.running).toOption.all fun device =>
      (dueDeadlines (driven [(0, linkUp "eth0")] bootedBridge).manager.stpPending
        15000000000).all fun entry => (findSTPPort device.stp.ports entry.1).all fun found =>
          found.role ≠ roleAlternate) = true := by
    decide +kernel
  have hSafe : TickSafe defaultRouter
      (driven [(0, linkUp "eth0")] bootedBridge).machine.memory.running
      (driven [(0, linkUp "eth0")] bootedBridge).manager.stpPending 15000000000 := by
    refine fun _ => ⟨⟨stpPortPath "eth1" "port", by decide +kernel, ?_⟩, ?_⟩
    · rw [InMACTable]
      decide +kernel
    intro device hDevice _ entry hEntry found hFound
    rw [hDevice] at hDue
    have hPort := List.all_eq_true.mp hDue entry hEntry
    rw [hFound] at hPort
    exact of_decide_eq_true hPort
  have hTicked := SafeRun.driven bootedBridge _ 15000000000 .tick hUp (by norm_num)
    ⟨fun _ => rfl, fun _ => hSafe⟩
  exact alternates_block_in_safe_runs (defaultRouter.options []) 15000000000 bootedBridge
    (alternatesBlock_of_alternatesBlocked (by decide +kernel)) 15000000000 _ hTicked

/-- The tick after the forward delay lets the alternate port learn, and the next one lets it
forward. -/
theorem alternate_port_learns_after_delay :
    AlternatesBlock defaultRouter bootedBridge.machine.memory.running ∧
      ¬ AlternatesBlock defaultRouter
        (driven [(0, betterBridge "eth1"), (15000000000, .tick)]
          bootedBridge).machine.memory.running ∧
      ¬ AlternatesBlock defaultRouter
        (driven [(0, betterBridge "eth1"), (15000000000, .tick), (30000000000, .tick)]
          bootedBridge).machine.memory.running := by
  refine ⟨alternatesBlock_of_alternatesBlocked (by decide +kernel), fun hBlock => ?_,
    fun hBlock => ?_⟩
  · exact hBlock (show _ = _ by decide +kernel) "eth0" (by decide +kernel) _ (by decide +kernel)
      (Or.inl rfl)
  · exact hBlock (show _ = _ by decide +kernel) "eth0" (by decide +kernel) _ (by decide +kernel)
      (Or.inr rfl)

end L2
end TriadSim
