import TriadSim.Gnmi.Subscribe

/-!
# What a stream is told

An event that finds a registered stream with room in its buffer gets a number, waits behind the
events before it, and is answered: the handler is never blocked while it waits, and a bound on its
remaining steps goes down with each of them, whatever goes on around it.  The main result is
`published_event_is_notified`.
-/

namespace TriadSim
namespace Gnmi

open Datatree Events Go Library Router Store

section Streams

variable {json : Json} {opts : Options} {r : Router} {stream : Stream} {world next : World json}
  {label : Label json.Raw}

/-! ## The steps that an event takes -/

/-- How many events the handler has received. -/
def Phase.started {Raw : Type} : Phase Raw → Nat
  | .wait _ handled => handled
  | .notify _ handled .. => handled + 1
  | .sendUpdate _ handled .. => handled + 1
  | _ => 0

/-- The steps for some targets and for going back to the channel. -/
def targetWork (todo : List GoString) : Nat :=
  2 * todo.length + 1

/-- The steps for an event, from the channel on. -/
def eventWork (paths : List GoString) (event : Events.Event) : Nat :=
  targetWork (eventTargets paths event) + 1

/-- The steps for the event in hand. -/
def Phase.work {Raw : Type} : Phase Raw → Nat
  | .notify _ _ _ todo => targetWork todo
  | .sendUpdate _ _ _ _ _ todo => targetWork todo + 1
  | _ => 0

/-- The events that wait for the handler. -/
def World.queue (world : World json) : List Events.Event :=
  match world.phase.channel with
  | none => []
  | some channel => (world.bus.channels[channel]?.map Chan.queue).getD []

/-- The number that the next event gets. -/
def World.number (world : World json) : Nat :=
  world.phase.started + world.queue.length

/-- The steps that it takes at most until an event published now is answered. -/
def World.delay (paths : List GoString) (world : World json) (event : Events.Event) : Nat :=
  world.phase.work + (world.queue.map (eventWork paths)).sum + eventWork paths event

/-- The event of some number is not answered yet at a target, and how many steps are left. -/
inductive Due (paths : List GoString) (number : Nat) (event : Events.Event) (target : GoString)
    (world : World json) : Nat → Prop
  | queued {channel : Nat} {buffered : Chan Events.Event} {earlier later : List Events.Event}
      (hChannel : world.phase.channel = some channel)
      (hBuffered : world.bus.channels[channel]? = some buffered)
      (hQueue : buffered.queue = earlier ++ event :: later)
      (hNumber : world.phase.started + earlier.length = number) :
      Due paths number event target world
        (world.phase.work + (earlier.map (eventWork paths)).sum + eventWork paths event)
  | inHand {channel : Nat} {todo : List GoString}
      (hPhase : world.phase = .notify channel number event todo) (hTarget : target ∈ todo) :
      Due paths number event target world (targetWork todo)
  | inFlight {channel : Nat} {current : GoString} {found : Notification json.Raw}
      {todo : List GoString}
      (hPhase : world.phase = .sendUpdate channel number event current found todo)
      (hTarget : target = current ∨ target ∈ todo) :
      Due paths number event target world (targetWork todo + 1)

/-! ## What a step can do -/

variable {env : StreamEnv} {channel : Nat} {other : Other json} {action : Action json}
    {result : Except Status Unit} {actions : List (Action json)} {labels : List (Label json.Raw)}
    {last : World json}

/-- A read leaves the bus alone. -/
theorem look_cases {channel : Option Nat} {target : GoString}
    {name : Option (Notification json.Raw) → Label json.Raw}
    {phase : Option (Notification json.Raw) → Phase json.Raw}
    (hLook : world.look opts r stream env channel target name phase = (label, next)) :
    (∃ result, next.phase = .ended result) ∨
      ∃ found, label = name found ∧ next.bus = world.bus ∧ next.phase = phase found := by
  unfold World.look at hLook
  dsimp only at hLook
  split at hLook
  · cases hLook
    exact Or.inl ⟨_, rfl⟩
  · next found _ =>
    cases hLook
    exact Or.inr ⟨found, rfl, rfl, rfl⟩

/-- A send leaves the bus alone, unless it fails. -/
theorem send_cases {channel : Option Nat} {seen : Label json.Raw} {phase : Phase json.Raw}
    (hSend : world.send env channel seen phase = (label, next)) :
    (∃ result, next.phase = .ended result) ∨
      label = seen ∧ next.bus = world.bus ∧ next.phase = phase := by
  unfold World.send at hSend
  split at hSend
  · cases hSend
    exact Or.inl ⟨_, rfl⟩
  · cases hSend
    exact Or.inr ⟨rfl, rfl, rfl⟩

/-- What goes on around a registered handler only adds to its channel, until the client goes
away. -/
theorem around_cases {buffered : Chan Events.Event} (hChannel : world.phase.channel = some channel)
    (hBuffered : world.bus.channels[channel]? = some buffered)
    (hAround : world.around other = some (label, next)) :
    label.isHandler = false ∧ ((∃ result, next.phase = .ended result) ∨
      next.phase = world.phase ∧ ∃ kept more, next.bus.channels[channel]? = some kept ∧
        kept.queue = buffered.queue ++ more ∧
        (next.bus.closed = false → world.bus.closed = false ∧ kept.isOpen = buffered.isOpen)) := by
  cases other with
  | write machine =>
    cases hAround
    exact ⟨rfl, Or.inr ⟨rfl, buffered, [], hBuffered, by simp, fun hOpen => ⟨hOpen, rfl⟩⟩⟩
  | publish event =>
    cases hAround
    refine ⟨rfl, Or.inr ⟨rfl, ?_⟩⟩
    cases hClosed : world.bus.closed with
    | true =>
      dsimp only
      rw [Bus.publish_of_closed hClosed]
      exact ⟨buffered, [], hBuffered, by simp, fun hOpen => ⟨hClosed ▸ hOpen, rfl⟩⟩
    | false =>
      obtain ⟨more, hMore⟩ := buffered.exists_queue_trySend world.bus.buffer event
      refine ⟨_, more, ?_, hMore, fun _ => ⟨rfl, Chan.isOpen_trySend ..⟩⟩
      rw [Bus.getElem?_publish hClosed, hBuffered]
      rfl
  | subscribe =>
    cases hAround
    exact ⟨rfl, Or.inr ⟨rfl, buffered, [], Bus.getElem?_subscribe hBuffered, by simp,
      fun hOpen => ⟨hOpen, rfl⟩⟩⟩
  | unsubscribe number =>
    rw [World.around] at hAround
    split at hAround
    · cases hAround
    · next hOther =>
      cases hAround
      have hNumber : number ≠ channel := fun hSame => hOther (hSame ▸ hChannel)
      exact ⟨rfl, Or.inr ⟨rfl, buffered, [], (Bus.getElem?_unsubscribe hNumber).trans hBuffered,
        by simp, fun hOpen => ⟨hOpen, rfl⟩⟩⟩
  | receive number =>
    rw [World.around] at hAround
    split at hAround
    · cases hAround
    · next hOther =>
      have hNumber : number ≠ channel := fun hSame => hOther (hSame ▸ hChannel)
      split at hAround
      · cases hAround
        exact ⟨rfl, Or.inr ⟨rfl, buffered, [], (Bus.getElem?_taken hNumber _).trans hBuffered,
          by simp, fun hOpen => ⟨hOpen, rfl⟩⟩⟩
      · cases hAround
  | closeBus =>
    cases hAround
    refine ⟨rfl, Or.inr ⟨rfl, buffered.close, [], ?_, by simp [Chan.close], ?_⟩⟩
    · rw [Bus.getElem?_close, hBuffered]
      rfl
    · intro hOpen
      cases hOpen
  | cancel =>
    rw [World.around] at hAround
    split at hAround
    · cases hAround
      exact ⟨rfl, Or.inl ⟨_, rfl⟩⟩
    · cases hAround

/-- Nothing happens after the handler has returned, but around it. -/
theorem ended_of_act (hEnded : world.phase = .ended result)
    (hAct : world.act opts r stream action = some (label, next)) : next.phase = .ended result := by
  cases action with
  | handler env =>
    rw [World.act, World.step, hEnded] at hAct
    cases hAct
  | around other =>
    rw [World.act] at hAct
    cases other with
    | cancel =>
      rw [World.around, hEnded] at hAct
      cases hAct
    | unsubscribe number =>
      rw [World.around] at hAct
      split at hAct
      · cases hAct
      · cases hAct
        exact hEnded
    | receive number =>
      rw [World.around] at hAct
      split at hAct
      · cases hAct
      · split at hAct
        · cases hAct
          exact hEnded
        · cases hAct
    | _ =>
      cases hAct
      exact hEnded

theorem run_cons_eq_some_iff :
    world.run opts r stream (action :: actions) = some (labels, last) ↔
      ∃ label next later, world.act opts r stream action = some (label, next) ∧
        next.run opts r stream actions = some (later, last) ∧ labels = label :: later := by
  rw [World.run]
  constructor
  · intro hRun
    obtain ⟨⟨label, next⟩, hAct, hRun⟩ := Option.bind_eq_some_iff.mp hRun
    obtain ⟨⟨later, found⟩, hRest, hSame⟩ := Option.bind_eq_some_iff.mp hRun
    cases hSame
    exact ⟨label, next, later, hAct, hRest, rfl⟩
  · rintro ⟨label, next, later, hAct, hRest, rfl⟩
    exact Option.bind_eq_some_iff.mpr ⟨_, hAct, Option.bind_eq_some_iff.mpr ⟨_, hRest, rfl⟩⟩

/-- What every step keeps, a run keeps. -/
theorem run_invariant {I : World json → Prop}
    (hStep : ∀ (world next : World json) label action, I world →
      world.act opts r stream action = some (label, next) → I next) (hStart : I world)
    (hRun : world.run opts r stream actions = some (labels, last)) : I last := by
  induction actions generalizing world labels with
  | nil =>
    cases hRun
    exact hStart
  | cons action rest ih =>
    obtain ⟨label, next, later, hAct, hRest, _⟩ := run_cons_eq_some_iff.mp hRun
    exact ih (hStep world next label action hStart hAct) hRest

theorem ended_of_run (hEnded : world.phase = .ended result)
    (hRun : world.run opts r stream actions = some (labels, last)) :
    last.phase = .ended result :=
  run_invariant (I := fun world => world.phase = .ended result)
    (fun _ _ _ _ hEnded hAct => ended_of_act hEnded hAct) hEnded hRun

/-- A registered handler has its channel, which is open as long as the bus is. -/
def World.Sound (world : World json) : Prop :=
  ∀ channel, world.phase.channel = some channel → ∃ buffered,
    world.bus.channels[channel]? = some buffered ∧
      (world.bus.closed = false → buffered.isOpen = true)

theorem World.Sound.of_eq (hSound : world.Sound) (hBus : next.bus = world.bus)
    (hChannel : next.phase.channel = world.phase.channel) : next.Sound := by
  intro channel hHere
  rw [hBus]
  exact hSound channel (hChannel ▸ hHere)

theorem sound_of_ended (hEnded : next.phase = .ended result) :
    next.Sound := by
  intro channel hChannel
  rw [hEnded] at hChannel
  cases hChannel

/-- The phase changes around the handler only when the client goes away. -/
theorem phase_of_around (hAround : world.around other = some (label, next)) :
    next.phase = world.phase ∨ ∃ result, next.phase = .ended result := by
  unfold World.around at hAround
  split at hAround
  · cases hAround
    exact Or.inl rfl
  · cases hAround
    exact Or.inl rfl
  · cases hAround
    exact Or.inl rfl
  · split at hAround
    · cases hAround
    · cases hAround
      exact Or.inl rfl
  · split at hAround
    · cases hAround
    · split at hAround
      · cases hAround
        exact Or.inl rfl
      · cases hAround
  · cases hAround
    exact Or.inl rfl
  · split at hAround
    · cases hAround
      exact Or.inr ⟨_, rfl⟩
    · cases hAround

theorem sound_step (hSound : world.Sound)
    (hStep : world.step opts r stream env = some (label, next)) : next.Sound := by
  rw [World.step] at hStep
  cases hPhase : world.phase with
  | snapshots todo =>
    rw [hPhase] at hStep
    cases todo with
    | nil =>
      cases hStep
      exact fun channel hChannel => by cases hChannel
    | cons path todo =>
      rcases look_cases (Option.some.inj hStep) with ⟨result, hEnded⟩ | ⟨found, _, hBus, hNext⟩
      · exact sound_of_ended hEnded
      · refine hSound.of_eq hBus ?_
        rw [hNext, hPhase]
        cases found <;> rfl
  | sendSnapshot found todo =>
    rw [hPhase] at hStep
    rcases send_cases (Option.some.inj hStep) with ⟨result, hEnded⟩ | ⟨_, hBus, hNext⟩
    · exact sound_of_ended hEnded
    · exact hSound.of_eq hBus (by rw [hNext, hPhase]; rfl)
  | sync =>
    rw [hPhase] at hStep
    rcases send_cases (Option.some.inj hStep) with ⟨result, hEnded⟩ | ⟨_, hBus, hNext⟩
    · exact sound_of_ended hEnded
    · refine hSound.of_eq hBus ?_
      rw [hNext, hPhase]
      split <;> rfl
  | register =>
    rw [hPhase] at hStep
    cases hStep
    rintro channel ⟨⟩
    refine ⟨if world.bus.closed then Chan.new.close else Chan.new, ?_, ?_⟩
    · exact List.getElem?_concat_length
    · intro hOpen
      have hStill : world.bus.closed = false := hOpen
      rw [hStill]
      rfl
  | wait channel handled =>
    rw [hPhase] at hStep
    dsimp only at hStep
    obtain ⟨buffered, hBuffered, hOpen⟩ := hSound channel (by rw [hPhase]; rfl)
    rw [hBuffered, Option.map_some, Chan.receive] at hStep
    split at hStep
    · next received rest hReceived =>
      cases hStep
      rintro other ⟨⟩
      refine ⟨rest, Bus.getElem?_taken_self hBuffered rest, fun hStill => ?_⟩
      cases hQueue : buffered.queue with
      | nil =>
        rw [hQueue] at hReceived
        dsimp only at hReceived
        split at hReceived <;> cases hReceived
      | cons first later =>
        rw [hQueue] at hReceived
        cases hReceived
        exact hOpen hStill
    · cases hStep
      exact sound_of_ended rfl
    · cases hStep
  | notify channel handled current todo =>
    rw [hPhase] at hStep
    cases todo with
    | nil =>
      cases hStep
      exact hSound.of_eq rfl (by rw [hPhase]; rfl)
    | cons target todo =>
      rcases look_cases (Option.some.inj hStep) with ⟨result, hEnded⟩ | ⟨found, _, hBus, hNext⟩
      · exact sound_of_ended hEnded
      · refine hSound.of_eq hBus ?_
        rw [hNext, hPhase]
        cases found <;> rfl
  | sendUpdate channel handled current target found todo =>
    rw [hPhase] at hStep
    rcases send_cases (Option.some.inj hStep) with ⟨result, hEnded⟩ | ⟨_, hBus, hNext⟩
    · exact sound_of_ended hEnded
    · exact hSound.of_eq hBus (by rw [hNext, hPhase]; rfl)
  | ended result =>
    rw [hPhase] at hStep
    cases hStep

theorem sound_act (hSound : world.Sound)
    (hAct : world.act opts r stream action = some (label, next)) : next.Sound := by
  cases action with
  | handler env => exact sound_step hSound hAct
  | around other =>
    rcases phase_of_around hAct with hPhase | ⟨result, hEnded⟩
    · intro channel hChannel
      rw [hPhase] at hChannel
      obtain ⟨buffered, hBuffered, hOpen⟩ := hSound channel hChannel
      obtain ⟨_, ⟨result, hEnded⟩ | ⟨_, kept, more, hKept, _, hStill⟩⟩ :=
        around_cases hChannel hBuffered hAct
      · rw [hPhase] at hEnded
        rw [hEnded] at hChannel
        cases hChannel
      · refine ⟨kept, hKept, fun hClosed => ?_⟩
        obtain ⟨hBefore, hSame⟩ := hStill hClosed
        rw [hSame, hOpen hBefore]
    · exact sound_of_ended hEnded

theorem sound_run (hSound : world.Sound)
    (hRun : world.run opts r stream actions = some (labels, last)) : last.Sound :=
  run_invariant (fun _ _ _ _ hSound hAct => sound_act hSound hAct) hSound hRun

/-! ## An event that is due -/

variable {paths : List GoString} {number steps : Nat} {event : Events.Event} {target : GoString}

/-- A read or a send for another event leaves the queue as it is. -/
theorem Due.of_queue {buffered : Chan Events.Event} {earlier later : List Events.Event}
    (hBuffered : world.bus.channels[channel]? = some buffered)
    (hQueue : buffered.queue = earlier ++ event :: later) (hBus : next.bus = world.bus)
    (hChannel : next.phase.channel = some channel)
    (hNumber : next.phase.started + earlier.length = number) :
    Due paths number event target next
      (next.phase.work + (earlier.map (eventWork paths)).sum + eventWork paths event) :=
  .queued hChannel (hBus ▸ hBuffered) hQueue hNumber

/-- A step of the handler answers an event that is due at a target, or brings it closer. -/
theorem Due.step (hDue : Due stream.paths number event target world steps)
    (hTarget : target ∈ eventTargets stream.paths event)
    (hStep : world.step opts r stream env = some (label, next))
    (hOpen : ∀ result, next.phase ≠ .ended result)
    (hFound : label ≠ .readTarget number target none) :
    (∃ found, label = .notified number target found) ∨
      ∃ fewer < steps, Due stream.paths number event target next fewer := by
  cases hDue with
  | @queued channel buffered earlier later hChannel hBuffered hQueue hNumber =>
    right
    rw [World.step] at hStep
    cases hPhase : world.phase with
    | wait other handled =>
      rw [hPhase] at hStep hChannel hNumber
      cases hChannel
      dsimp only at hStep
      rw [hBuffered, Option.map_some, Chan.receive, hQueue] at hStep
      cases earlier with
      | nil =>
        cases hStep
        refine ⟨targetWork (eventTargets stream.paths event), ?_, ?_⟩
        · simp [Phase.work, eventWork]
        · cases hNumber
          exact .inHand rfl hTarget
      | cons first earlier =>
        cases hStep
        refine ⟨_, ?_, .queued rfl (Bus.getElem?_taken_self hBuffered _) rfl ?_⟩
        · simp only [Phase.work, List.map_cons, List.sum_cons, eventWork]
          omega
        · rw [← hNumber]
          simp only [Phase.started, List.length_cons]
          omega
    | notify other handled current todo =>
      rw [hPhase] at hStep hChannel hNumber
      cases todo with
      | nil =>
        cases hStep
        refine ⟨_, ?_, .of_queue hBuffered hQueue rfl hChannel hNumber⟩
        simp [Phase.work, targetWork]
      | cons first todo =>
        rcases look_cases (Option.some.inj hStep) with ⟨result, hEnded⟩ |
          ⟨found, _, hBus, hNext⟩
        · exact absurd hEnded (hOpen result)
        · cases found with
          | none =>
            refine ⟨_, ?_, .of_queue hBuffered hQueue hBus (hNext ▸ hChannel)
              (hNext ▸ hNumber)⟩
            simp only [hNext, Option.elim_none, Phase.work, targetWork, List.length_cons]
            omega
          | some found =>
            refine ⟨_, ?_, .of_queue hBuffered hQueue hBus (hNext ▸ hChannel)
              (hNext ▸ hNumber)⟩
            simp only [hNext, Option.elim_some, Phase.work, targetWork, List.length_cons]
            omega
    | sendUpdate other handled current sent found todo =>
      rw [hPhase] at hStep hChannel hNumber
      rcases send_cases (Option.some.inj hStep) with ⟨result, hEnded⟩ | ⟨_, hBus, hNext⟩
      · exact absurd hEnded (hOpen result)
      · refine ⟨_, ?_, .of_queue hBuffered hQueue hBus (hNext ▸ hChannel) (hNext ▸ hNumber)⟩
        simp only [hNext, Phase.work]
        omega
    | _ =>
      rw [hPhase] at hChannel
      cases hChannel
  | @inHand channel todo hPhase hTodo =>
    right
    rw [World.step, hPhase] at hStep
    cases todo with
    | nil => cases hTodo
    | cons first todo =>
      rcases look_cases (Option.some.inj hStep) with ⟨result, hEnded⟩ | ⟨found, hLabel, _, hNext⟩
      · exact absurd hEnded (hOpen result)
      · cases found with
        | none =>
          have hOther : target ≠ first := by
            rintro rfl
            exact hFound hLabel
          refine ⟨targetWork todo, ?_, .inHand hNext
            ((List.mem_cons.mp hTodo).resolve_left hOther)⟩
          simp [targetWork]
        | some found =>
          refine ⟨targetWork todo + 1, ?_, .inFlight hNext (List.mem_cons.mp hTodo)⟩
          simp only [targetWork, List.length_cons]
          omega
  | @inFlight channel current found todo hPhase hTodo =>
    rw [World.step, hPhase] at hStep
    rcases send_cases (Option.some.inj hStep) with ⟨result, hEnded⟩ | ⟨hLabel, _, hNext⟩
    · exact absurd hEnded (hOpen result)
    · rcases hTodo with rfl | hLater
      · exact Or.inl ⟨found, hLabel⟩
      · exact Or.inr ⟨targetWork todo, Nat.lt_succ_self _, .inHand hNext hLater⟩

/-- What goes on around the handler does not keep an event from being answered. -/
theorem Due.around (hDue : Due paths number event target world steps)
    (hSound : ∃ channel buffered, world.phase.channel = some channel ∧
      world.bus.channels[channel]? = some buffered)
    (hAround : world.around other = some (label, next))
    (hOpen : ∀ result, next.phase ≠ .ended result) :
    label.isHandler = false ∧ Due paths number event target next steps := by
  obtain ⟨channel, buffered, hChannel, hBuffered⟩ := hSound
  obtain ⟨hLabel, ⟨result, hEnded⟩ | ⟨hPhase, kept, more, hKept, hQueue, _⟩⟩ :=
    around_cases hChannel hBuffered hAround
  · exact absurd hEnded (hOpen result)
  · refine ⟨hLabel, ?_⟩
    cases hDue with
    | @queued other before earlier later hOther hBefore hHere hNumber =>
      cases hChannel.symm.trans hOther
      cases hBuffered.symm.trans hBefore
      have hLater : kept.queue = earlier ++ event :: (later ++ more) := by
        rw [hQueue, hHere]
        simp
      rw [← hPhase] at hOther hNumber ⊢
      exact .queued hOther hKept hLater hNumber
    | inHand hHere hTodo => exact .inHand (hPhase.trans hHere) hTodo
    | inFlight hHere hTodo => exact .inFlight (hPhase.trans hHere) hTodo

/-- The handler is not blocked while an event is due. -/
theorem Due.isSome_step (hDue : Due paths number event target world steps) (env : StreamEnv) :
    (world.step opts r stream env).isSome = true := by
  rw [World.step]
  cases hPhase : world.phase with
  | wait other handled =>
    cases hDue with
    | @queued channel buffered earlier later hChannel hBuffered hQueue _ =>
      rw [hPhase] at hChannel
      cases hChannel
      dsimp only
      rw [hBuffered, Option.map_some, Chan.receive, hQueue]
      cases earlier <;> rfl
    | inHand hHere _ | inFlight hHere _ => cases hPhase.symm.trans hHere
  | snapshots todo | notify channel handled current todo => cases todo <;> rfl
  | ended result =>
    cases hDue with
    | queued hChannel _ _ _ =>
      rw [hPhase] at hChannel
      cases hChannel
    | inHand hHere _ | inFlight hHere _ => cases hPhase.symm.trans hHere
  | _ => rfl

/-- The steps of the handler in a run. -/
def handlerSteps {Raw : Type} (labels : List (Label Raw)) : Nat :=
  labels.countP Label.isHandler

theorem Due.channel_eq_some (hDue : Due paths number event target world steps) :
    ∃ channel, world.phase.channel = some channel := by
  cases hDue with
  | queued hChannel _ _ _ => exact ⟨_, hChannel⟩
  | @inHand channel todo hPhase _ | @inFlight channel current found todo hPhase _ =>
    exact ⟨channel, by rw [hPhase]; rfl⟩

/-- In a run that the stream survives, an event that is due is answered, or the steps of the
handler are taken off what is left for it. -/
theorem Due.run (hDue : Due stream.paths number event target world steps)
    (hTarget : target ∈ eventTargets stream.paths event) (hSound : world.Sound)
    (hRun : world.run opts r stream actions = some (labels, last))
    (hOpen : ∀ result, last.phase ≠ .ended result)
    (hFound : .readTarget number target none ∉ labels) :
    (∃ found, .notified number target found ∈ labels) ∨
      ∃ left, Due stream.paths number event target last left ∧
        left + handlerSteps labels ≤ steps := by
  induction actions generalizing world labels steps with
  | nil =>
    cases hRun
    exact Or.inr ⟨steps, hDue, le_refl steps⟩
  | cons action rest ih =>
    obtain ⟨label, next, later, hAct, hRest, rfl⟩ := run_cons_eq_some_iff.mp hRun
    have hStill : ∀ result, next.phase ≠ .ended result :=
      fun result hEnded => hOpen result (ended_of_run hEnded hRest)
    rw [List.mem_cons, not_or] at hFound
    have hNext := sound_act hSound hAct
    cases action with
    | handler env =>
      rcases hDue.step hTarget hAct hStill (Ne.symm hFound.1) with
        ⟨found, rfl⟩ | ⟨fewer, hFewer, hLater⟩
      · exact Or.inl ⟨found, List.mem_cons_self⟩
      · rcases ih hLater hNext hRest hFound.2 with ⟨found, hSent⟩ | ⟨left, hLeft, hSum⟩
        · exact Or.inl ⟨found, List.mem_cons_of_mem _ hSent⟩
        · refine Or.inr ⟨left, hLeft, ?_⟩
          have hCount : handlerSteps (label :: later) ≤ handlerSteps later + 1 := by
            unfold handlerSteps
            rw [List.countP_cons]
            split <;> omega
          omega
    | around other =>
      obtain ⟨channel, hChannel⟩ := hDue.channel_eq_some
      obtain ⟨buffered, hBuffered, _⟩ := hSound channel hChannel
      obtain ⟨hLabel, hLater⟩ :=
        hDue.around ⟨channel, buffered, hChannel, hBuffered⟩ hAct hStill
      rcases ih hLater hNext hRest hFound.2 with ⟨found, hSent⟩ | ⟨left, hLeft, hSum⟩
      · exact Or.inl ⟨found, List.mem_cons_of_mem _ hSent⟩
      · refine Or.inr ⟨left, hLeft, ?_⟩
        unfold handlerSteps at hSum ⊢
        rw [List.countP_cons_of_neg (by simp [hLabel])]
        exact hSum

/-! ## Published events -/

/-- An event that a registered stream has room for is due, behind those that wait already. -/
theorem due_of_publish (paths : List GoString) (hSound : world.Sound)
    (hChannel : world.phase.channel = some channel) (hBus : world.bus.closed = false)
    (hRoom : world.queue.length < world.bus.buffer) (event : Events.Event) (target : GoString) :
    Due paths world.number event target { world with bus := world.bus.publish event }
      (world.delay paths event) := by
  obtain ⟨buffered, hBuffered, hOpen⟩ := hSound channel hChannel
  have hQueue : world.queue = buffered.queue := by
    rw [World.queue, hChannel]
    dsimp only
    rw [hBuffered]
    rfl
  rw [hQueue] at hRoom
  have hTaken : (world.bus.publish event).channels[channel]? =
      some { buffered with queue := buffered.queue ++ [event] } := by
    rw [Bus.getElem?_publish hBus, hBuffered, Option.map_some,
      Chan.trySend_of_room (hOpen hBus) hRoom]
  unfold World.delay World.number
  rw [hQueue]
  exact .queued hChannel hTaken rfl rfl

/-- An event that is published while a stream is registered, and that concerns one of its
paths, is answered there within a bounded number of steps of the handler, which is not blocked
before, as long as the buffer has room, the stream stays open and the path has data when it is
read. -/
theorem published_event_is_notified (opts : Options) (r : Router) (stream : Stream)
    (start world last : World json) (before after : List (Action json))
    (seen labels : List (Label json.Raw)) (event : Events.Event) (path affected : GoString)
    (hStart : start.phase.channel = none)
    (hBefore : start.run opts r stream before = some (seen, world))
    (hRegistered : ∃ channel, world.phase.channel = some channel)
    (hBus : world.bus.closed = false) (hRoom : world.queue.length < world.bus.buffer)
    (hPath : path ∈ stream.paths) (hAffected : affected ∈ affectedPaths event)
    (hMatch : matchesSubscription path affected = true)
    (hAfter : world.run opts r stream (.around (.publish event) :: after) = some (labels, last))
    (hOpen : ∀ result, last.phase ≠ .ended result)
    (hFound : .readTarget world.number (notificationTarget path affected) none ∉ labels) :
    (∃ found, .notified world.number (notificationTarget path affected) found ∈ labels) ∨
      handlerSteps labels < world.delay stream.paths event ∧
        ∀ env, (last.step opts r stream env).isSome = true := by
  have hFresh : start.Sound := by
    intro channel hChannel
    rw [hStart] at hChannel
    cases hChannel
  have hSound := sound_run hFresh hBefore
  obtain ⟨channel, hChannel⟩ := hRegistered
  have hTarget : notificationTarget path affected ∈ eventTargets stream.paths event :=
    List.mem_flatMap.mpr ⟨affected, hAffected,
      (mem_targetsFor hPath hMatch).resolve_left List.not_mem_nil⟩
  obtain ⟨label, next, later, hAct, hRest, rfl⟩ := run_cons_eq_some_iff.mp hAfter
  have hNext := sound_act hSound hAct
  cases hAct
  have hDue := due_of_publish stream.paths hSound hChannel hBus hRoom event
    (notificationTarget path affected)
  rw [List.mem_cons, not_or] at hFound
  rcases hDue.run hTarget hNext hRest hOpen hFound.2 with ⟨found, hSent⟩ | ⟨left, hLeft, hSum⟩
  · exact Or.inl ⟨found, List.mem_cons_of_mem _ hSent⟩
  · right
    refine ⟨?_, fun env => hLeft.isSome_step env⟩
    have hSome : 0 < left := by
      cases hLeft <;> simp [targetWork, eventWork]
    have hCount : handlerSteps (Label.published event :: later) = handlerSteps later :=
      List.countP_cons_of_neg (by simp [Label.isHandler])
    omega

/-- Nothing fails. -/
def quietStream : StreamEnv :=
  ⟨fun _ => CallEnv.quiet, none⟩

/-- A stream about the system. -/
def systemStream : Stream :=
  ⟨["system-info"], .json, false⟩

/-- A device with a name, an empty bus and the stream before its first snapshot. -/
def systemWorld (bus : Bus) (phase : Phase Json.plain.Raw) : World Json.plain :=
  ⟨machineWith namedContent, bus, phase⟩

/-- The event of a configuration change. -/
def configEvent : Events.Event :=
  { type := .configChanged, resource := "device" }

/-- What the device answers for the system. -/
theorem exists_systemNotification :
    ∃ found, (notification defaultRouter Json.plain "system-info" .all .json).run
      (defaultRouter.options []) quietStream.calls (machineWith namedContent) =
        (.ok (some found), machineWith namedContent) := by
  obtain ⟨results, hResults⟩ := exists_eq_ok_of_isOk
    (show (defaultRouter.describeAll namedContent).isOk = true by decide +kernel)
  have hRead : (notification defaultRouter Json.plain "system-info" .all .json).LiveEnsures
      (defaultRouter.options []) (fun _ after => after = machineWith namedContent)
      (machineWith namedContent) :=
    (ensures_live_notification hResults "system-info" .all .json).mono fun _ _ hBoth => hBoth.1
  have hMachine := hRead.run quietStream.calls fun _ => rfl
  have hSome : ((notification defaultRouter Json.plain "system-info" .all .json).run
      (defaultRouter.options []) quietStream.calls
      (machineWith namedContent)).1.toOption.join.isSome = true := by
    decide +kernel
  obtain ⟨found, hFound⟩ := Option.isSome_iff_exists.mp hSome
  refine ⟨found, Prod.ext ?_ hMachine⟩
  cases hResult : ((notification defaultRouter Json.plain "system-info" .all .json).run
      (defaultRouter.options []) quietStream.calls (machineWith namedContent)).1 with
  | error status =>
    rw [hResult] at hFound
    cases hFound
  | ok answer =>
    rw [hResult] at hFound
    cases answer with
    | none => cases hFound
    | some other =>
      cases hFound
      rfl

/-- The steps of the stream up to its registration. -/
def untilRegistered : List (Action Json.plain) :=
  List.replicate 5 (.handler quietStream)

/-- The bus with the channel of the stream. -/
def registeredBus (queue : List Events.Event) : Bus :=
  ⟨[⟨queue, true⟩], 64, false⟩

theorem step_read {found : Notification Json.plain.Raw} (bus : Bus) (todo : List GoString)
    (hFound : (notification defaultRouter Json.plain "system-info" .all .json).run
      (defaultRouter.options []) quietStream.calls (machineWith namedContent) =
        (.ok (some found), machineWith namedContent)) :
    (systemWorld bus (.snapshots ("system-info" :: todo))).act (defaultRouter.options [])
      defaultRouter systemStream (.handler quietStream) =
      some (.readSnapshot "system-info" (some found), systemWorld bus (.sendSnapshot found todo)) ∧
    (systemWorld bus (.notify 0 0 configEvent ("system-info" :: todo))).act
      (defaultRouter.options []) defaultRouter systemStream (.handler quietStream) =
      some (.readTarget 0 "system-info" (some found),
        systemWorld bus (.sendUpdate 0 0 configEvent "system-info" found todo)) := by
  constructor
  · show some (World.look ..) = _
    rw [World.look]
    simp only [systemWorld, systemStream, hFound]
    rfl
  · show some (World.look ..) = _
    rw [World.look]
    simp only [systemWorld, systemStream, hFound]
    rfl

theorem config_event_is_notified :
    ∃ world last seen labels found,
      (systemWorld (Bus.new 0) (.snapshots ["system-info"])).run (defaultRouter.options [])
        defaultRouter systemStream untilRegistered = some (seen, world) ∧
      world.run (defaultRouter.options []) defaultRouter systemStream
        (.around (.publish configEvent) :: List.replicate 4 (.handler quietStream)) =
          some (labels, last) ∧
      Label.notified 0 "system-info" found ∈ labels := by
  obtain ⟨found, hFound⟩ := exists_systemNotification
  have hRead := step_read (Bus.new 0) [] hFound
  have hAgain := (step_read (registeredBus []) [] hFound).2
  have hBefore : (systemWorld (Bus.new 0) (.snapshots ["system-info"])).run
      (defaultRouter.options []) defaultRouter systemStream untilRegistered =
      some ([.readSnapshot "system-info" (some found), .sent (.update found), .moved, .sent .sync,
        .registered], systemWorld (registeredBus []) (.wait 0 0)) :=
    run_cons_eq_some_iff.mpr ⟨_, _, _, hRead.1, rfl, rfl⟩
  have hAfter : (systemWorld (registeredBus []) (.wait 0 0)).run (defaultRouter.options [])
      defaultRouter systemStream
      (.around (.publish configEvent) :: List.replicate 4 (.handler quietStream)) =
      some ([.published configEvent, .received 0 configEvent,
        .readTarget 0 "system-info" (some found), .notified 0 "system-info" found, .moved],
        systemWorld (registeredBus []) (.wait 0 1)) :=
    run_cons_eq_some_iff.mpr ⟨_, _, _, rfl, run_cons_eq_some_iff.mpr ⟨_, _, _, rfl,
      run_cons_eq_some_iff.mpr ⟨_, _, _, hAgain, rfl, rfl⟩, rfl⟩, rfl⟩
  have hNotified :=
    published_event_is_notified (defaultRouter.options []) defaultRouter systemStream
    _ _ _ _ _ _ _ configEvent "system-info" [] rfl hBefore ⟨0, rfl⟩ rfl (by decide)
    List.mem_cons_self List.mem_cons_self rfl hAfter (fun result hEnded => by cases hEnded)
    (by simp [notificationTarget])
  have hSteps : ¬ 4 < 4 := lt_irrefl 4
  obtain ⟨other, hOther⟩ := hNotified.resolve_right fun hLess => hSteps hLess.1
  exact ⟨_, _, _, _, other, hBefore, hAfter, hOther⟩

/-- An event between the snapshot of a path and the registration is lost: the handler waits,
nothing is in its buffer, and the stream was not told. -/
theorem early_event_is_lost :
    ∃ found last,
      (systemWorld (Bus.new 0) (.snapshots ["system-info"])).run (defaultRouter.options [])
        defaultRouter systemStream (.handler quietStream :: .around (.publish configEvent) ::
          List.replicate 4 (.handler quietStream)) =
        some ([.readSnapshot "system-info" (some found), .published configEvent,
          .sent (.update found), .moved, .sent .sync, .registered], last) ∧
      matchesSubscription "system-info" [] = true ∧ affectedPaths configEvent = [[]] ∧
      last.queue = [] ∧ ∀ env, last.step (defaultRouter.options []) defaultRouter systemStream env =
        none := by
  obtain ⟨found, hFound⟩ := exists_systemNotification
  have hRead := step_read (Bus.new 0) [] hFound
  refine ⟨found, systemWorld (registeredBus []) (.wait 0 0), ?_, rfl, rfl, rfl, fun env => rfl⟩
  exact run_cons_eq_some_iff.mpr ⟨_, _, _, hRead.1, rfl, rfl⟩

end Streams

end Gnmi
end TriadSim
