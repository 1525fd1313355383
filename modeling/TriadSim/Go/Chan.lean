import Mathlib.Data.List.Basic

/-!
# Buffered channels

A Go channel with a buffer: a send that may not block puts a value at the end of the queue or
drops it, and a receive takes the first value.  A closed channel takes nothing more and gives
out what is left.
-/

namespace TriadSim
namespace Go

variable {α : Type}

/-- A channel: what waits in its buffer, and whether it is open. -/
structure Chan (α : Type) where
  queue : List α
  isOpen : Bool
  deriving DecidableEq, Repr

namespace Chan

/-- `make(chan T, n)`. -/
def new : Chan α :=
  ⟨[], true⟩

/-- A send in a `select` with a `default` branch. -/
def trySend (buffer : Nat) (channel : Chan α) (value : α) : Chan α :=
  if channel.isOpen && decide (channel.queue.length < buffer) then
    { channel with queue := channel.queue ++ [value] }
  else channel

/-- `close`. -/
def close (channel : Chan α) : Chan α :=
  { channel with isOpen := false }

/-- What a receive finds: it blocks on an open channel with nothing in it. -/
inductive Received (α : Type) where
  | value (value : α) (rest : Chan α)
  | closed
  | blocked
  deriving DecidableEq, Repr

/-- A receive. -/
def receive (channel : Chan α) : Received α :=
  match channel.queue with
  | value :: rest => .value value { channel with queue := rest }
  | [] => if channel.isOpen then .blocked else .closed

/-- A channel with room takes a value. -/
theorem trySend_of_room {buffer : Nat} {channel : Chan α} (hOpen : channel.isOpen = true)
    (hRoom : channel.queue.length < buffer) (value : α) :
    channel.trySend buffer value = { channel with queue := channel.queue ++ [value] } := by
  simp [trySend, hOpen, hRoom]

@[simp] theorem isOpen_trySend (buffer : Nat) (channel : Chan α) (value : α) :
    (channel.trySend buffer value).isOpen = channel.isOpen := by
  unfold trySend
  split <;> rfl

/-- A send only adds to the queue. -/
theorem exists_queue_trySend (buffer : Nat) (channel : Chan α) (value : α) :
    ∃ more, (channel.trySend buffer value).queue = channel.queue ++ more := by
  unfold trySend
  split
  · exact ⟨[value], rfl⟩
  · exact ⟨[], (List.append_nil _).symm⟩

end Chan
end Go
end TriadSim
