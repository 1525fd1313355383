import TriadSim.Router.Ops

/-!
# Interface counters

`internal/l2/counters.go`: traffic moves the counters of a port by a read of running and
one state write for each counter, under the lock of the manager.
-/

namespace TriadSim
namespace L2

open Go Model Router

/-- `addCounters`; the fields wrap around. -/
def addCounters (a b : InterfaceCounters) : InterfaceCounters :=
  { inOctets := a.inOctets + b.inOctets
    outOctets := a.outOctets + b.outOctets
    inUcastPkts := a.inUcastPkts + b.inUcastPkts
    outUcastPkts := a.outUcastPkts + b.outUcastPkts
    inErrors := a.inErrors + b.inErrors
    outErrors := a.outErrors + b.outErrors
    inDiscards := a.inDiscards + b.inDiscards
    outDiscards := a.outDiscards + b.outDiscards }

/-- `findInterface`. -/
def findInterface (device : Device) (name : GoString) : Option Interface :=
  device.interfaces.find? fun interface => interface.name = name

/-- An error with what was being done. -/
def inContext (context : GoString) (err : Err) : Err :=
  .text context ++ err

/-- `Counters`. -/
def counters (r : Router) (port : GoString) : Prog (Except Err InterfaceCounters) :=
  (r.snapshot .running).bind fun
    | .error err => .ret (.error (inContext "l2: counters: " err))
    | .ok device =>
      .ret <| match findInterface device port with
        | none =>
          .error (.sentinel (.external "bridge port not found") ++ .text (": " ++ port))
        | some interface => .ok interface.counters

/-- The counters under the names of their leaves, in the order they are written. -/
def counterFields (sum : InterfaceCounters) : List (GoString × Leaf) :=
  [("in-octets", .uint64 sum.inOctets), ("out-octets", .uint64 sum.outOctets),
    ("in-ucast-pkts", .uint64 sum.inUcastPkts), ("out-ucast-pkts", .uint64 sum.outUcastPkts),
    ("in-errors", .uint32 sum.inErrors), ("out-errors", .uint32 sum.outErrors),
    ("in-discards", .uint32 sum.inDiscards), ("out-discards", .uint32 sum.outDiscards)]

/-- The path of a counter. -/
def counterPath (port name : GoString) : GoString :=
  "interfaces/interface[name=" ++ port ++ "]/counters/" ++ name

/-- The loop of `increment` over what is left of the fields. -/
def writeCounters (r : Router) (port : GoString) : List (GoString × Leaf) → Prog (Except Err Unit)
  | [] => .ret (.ok ())
  | (name, value) :: rest =>
    (r.setState (counterPath port name) (.leaf value)).bind fun
      | .error err =>
        .ret (.error (inContext ("l2: counters " ++ port ++ ": set " ++ name ++ ": ") err))
      | .ok _ => writeCounters r port rest

/-- `increment`. -/
def incrementLocked (r : Router) (port : GoString) (delta : InterfaceCounters) :
    Prog (Except Err Unit) :=
  andThen (counters r port) fun current =>
    writeCounters r port (counterFields (addCounters current delta))

/-- `Increment`. -/
def increment (r : Router) (port : GoString) (delta : InterfaceCounters) :
    Prog (Except Err Unit) :=
  .locked .l2Manager (incrementLocked r port delta)

end L2
end TriadSim
