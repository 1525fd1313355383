import TriadSim.Sync.Ptp

/-!
# The holdover timer

`internal/sync/manager.go`: a clock that enters holdover starts a timer, and the timer lets `Run`
end the holdover.  The expiry takes several steps to get there: the timer fires and starts a
callback, the callback puts a token into a channel with one slot, `Run` takes the token out and
then waits for the lock of the manager.  A source that comes back stops the timer, but nothing
stops an expiry that is already on its way, and nothing ties it to the holdover that it was
meant for.

The programs of the clock run over the shared state as before; around it, the handler keeps the
timers, which change exactly when the manager changes its state.  Time passes, callbacks run and
others write to running, for instance another timeout, between any two accesses of a program.
-/

namespace TriadSim
namespace Sync

open Go Library Router Store

/-- A reading of the clock, in nanoseconds. -/
abbrev Time := Nat

/-- A holdover: when it began, and the timeout that was configured then, in seconds. -/
structure Period where
  start : Time
  timeout : UInt32
  deriving DecidableEq

/-- The earliest time at which a holdover may end. -/
def Period.due (period : Period) : Time :=
  period.start + period.timeout.toNat * 1000000000

/-- The process with the timers of its clock.  `period` is the holdover that the clock is in; no
program looks at it. -/
structure Timed (json : Json) where
  machine : Machine json
  /-- The content that the last snapshot was made of. -/
  read : Values
  now : Time
  /-- The deadline of `m.timer`, while it is running. -/
  timer : Option Time
  /-- The deadlines of running timers that the manager has forgotten. -/
  forgotten : List Time
  /-- The callbacks that have been started and have not put their token yet. -/
  callbacks : Nat
  /-- The slot of `m.expired`. -/
  expired : Bool
  /-- `Run` has taken a token and has not handled it yet. -/
  taken : Bool
  period : Option Period

/-- What happens by itself, and what others do to running. -/
inductive Move where
  | elapse (duration : Nat)
  | fire
  | fireForgotten (index : Nat)
  | deliver
  | take
  | write (running : Values)

namespace Timed

variable {json : Json}

/-- The manager of the clock. -/
abbrev clock (timed : Timed json) : ClockManager :=
  timed.machine.clockManager

/-- A move; one that cannot be made changes nothing. -/
def move (timed : Timed json) : Move → Timed json
  | .elapse duration => { timed with now := timed.now + duration }
  | .fire =>
    match timed.timer with
    | some deadline =>
      if deadline ≤ timed.now then
        { timed with timer := none, callbacks := timed.callbacks + 1 }
      else timed
    | none => timed
  | .fireForgotten index =>
    match timed.forgotten[index]? with
    | some deadline =>
      if deadline ≤ timed.now then
        { timed with forgotten := timed.forgotten.eraseIdx index
                     callbacks := timed.callbacks + 1 }
      else timed
    | none => timed
  | .deliver =>
    match timed.callbacks with
    | 0 => timed
    | callbacks + 1 => { timed with callbacks, expired := true }
  | .take => if timed.expired then { timed with expired := false, taken := true } else timed
  | .write running => { timed with machine.memory.running := running }

/-- The configured timeout, in the device of the last snapshot. -/
def timeout (r : Router) (timed : Timed json) : UInt32 :=
  (deviceFromValues r.root timed.read).toOption.elim 0 fun device => device.ptp.holdoverTimeout

/-- The clock gets another state: `startHoldover` when it enters holdover, and `stopHoldover` when
it leaves it, but a holdover that has expired only forgets its timer. -/
def setClock (r : Router) (timed : Timed json) (new : ClockManager) : Timed json :=
  let changed : Timed json := { timed with machine := { timed.machine with clockManager := new } }
  if new.known = timed.clock.known ∧ new.state = timed.clock.state then changed
  else if new.state = stateHoldoverInSpec then
    let period : Period := ⟨timed.now, timed.timeout r⟩
    { changed with timer := some period.due, period := some period }
  else if new.state = stateHoldoverOutOfSpec then
    { changed with timer := none, forgotten := timed.forgotten ++ timed.timer.toList
                   period := none }
  else { changed with timer := none, period := none }

/-- What an access does, after what has happened since the last one. -/
def handle (opts : Options) (r : Router) :
    Program.Handler Request Request.Response (CallEnv × List Move) (Timed json) :=
  fun env request before =>
    let timed := env.2.foldl move before
    let answered := Machine.handle opts env.1 request timed.machine
    (answered.1, match request with
      | .setClockManager new => timed.setClock r new
      | .values _ => { timed with machine := answered.2, read := timed.machine.memory.running }
      | _ => { timed with machine := answered.2 })

end Timed

/-- What is done to the clock. -/
inductive ClockCall where
  | handle (type : EventType)
  | syncLoss (source : GoString)
  /-- `handleDomainEvent`, for the alarm of a radio link that goes down or comes back. -/
  | radioAlarm (raised : Bool)
  /-- The part of `Tick` that touches the state. -/
  | tick
  /-- `Run` handles the token that it has taken. -/
  | expiry

/-- The program of a call. -/
def ClockCall.program (r : Router) : ClockCall → Prog (State × Option Err)
  | handle type => Sync.handle r type
  | syncLoss source => Sync.syncLoss r source
  | radioAlarm raised => Sync.handle r (if raised then .sourceLost else .sourceRestored)
  | tick => reconcilePTP r
  | expiry => expireHoldover r

/-- A call from beginning to end; an expiry needs a token that has been taken. -/
def ClockCall.run {json : Json} (opts : Options) (r : Router) (env : Nat → CallEnv × List Move)
    (before : Timed json) (call : ClockCall) : Timed json :=
  match call, before.taken with
  | expiry, false => before
  | expiry, true =>
    ((expiry.program r).exec (Timed.handle opts r) env { before with taken := false }).2.2
  | _, _ => ((call.program r).exec (Timed.handle opts r) env before).2.2

end Sync
end TriadSim
