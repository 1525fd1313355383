import TriadSim.Datatree.Edit

/-!
# Commits of a NETCONF session

`internal/netconf/ops`: a plain commit applies candidate and then ends a confirmed
commit in progress; a confirmed commit takes a snapshot of running, applies candidate
and arms the rollback to the snapshot, which the timer or the end of the session runs
later.  Candidate is applied under the lock of `Confirmed`, but the snapshot is taken
before it is held, and a rollback runs after it has been given back.
-/

namespace TriadSim
namespace Netconf

open Datatree Go Library Router Store

/-- `fromDataTree`. -/
def fromDataTree (err : Err) : Err :=
  if err.asEdit?.isSome then err else failed err

/-- `EditConfig`, from the target and the parsed edit on. -/
def editConfig (r : Router) (target : Datastore) (req : EditRequest) : Prog (Except Err Unit) :=
  if target = .startup then
    .ret (.error (newError .protocol .operationNotSupported []
      (.text "edit-config target startup is not supported")))
  else mapError fromDataTree (Datatree.apply r target req)

/-- `DiscardChanges`. -/
def discardChanges : Prog (Except Err Unit) :=
  mapError failed (ask (.mutate .rollback))

/-- The error of a commit that the store has refused. -/
def commitError (err : Err) : Err :=
  if err.is .storeValidation then invalidValue err.asText else failed err

/-- The answer of a commit is on record from its arrival to its reply. -/
def reported (confirmed : Bool) (body : Nat → Prog (Except Err Unit)) : Prog (Except Err Unit) :=
  .call (.issued confirmed) fun rpc => (body rpc).bind fun result =>
    .call (.returned confirmed result.isOk) fun () => .ret result

/-- `Confirmed.Confirm`. -/
def confirm : Prog Unit :=
  .locked .confirmed (ask .confirm)

/-- `Commit` without `<confirmed/>`. -/
def commit : Prog (Except Err Unit) :=
  reported false fun _ =>
    andThen (mapError commitError (ask (.mutate .commit))) fun () =>
      confirm.bind fun () => .ret (.ok ())

/-- `Confirmed.Apply`: a follow-up keeps the rollback of the first confirmed commit. -/
def confirmedApply (sessionID : UInt32) (rollback : Rollback) : Prog (Except Err Unit) :=
  .locked .confirmed <| .call .pending fun pend =>
    if pend.any fun pend => pend.sessionID ≠ sessionID then
      .ret (.error (denied
        (.text "a confirmed commit from another session is already in progress")))
    else
      andThen (mapError commitError (ask (.commitConfirmed rollback))) fun () =>
        .call .pending fun
          | some _ => .ret (.ok ())
          | none => .call (.arm sessionID rollback) fun () => .ret (.ok ())

/-- `commitConfirmed`. -/
def commitConfirmed (sessionID : UInt32) : Prog (Except Err Unit) :=
  reported true fun rpc =>
    andThen (mapError failed (ask .snapshot)) fun snapshot =>
      confirmedApply sessionID ⟨rpc, snapshot⟩

/-- Run the rollback that was taken, if any. -/
def runRollback : Option Rollback → Prog (Except Err Unit)
  | none => .ret (.ok ())
  | some rollback => ask (.restore rollback)

/-- `Confirmed.fire`, the callback of the timer. -/
def fire (seq : UInt64) : Prog (Except Err Unit) :=
  (Program.locked .confirmed (ask (.takeDue seq))).bind runRollback

/-- `Confirmed.SessionEnded`. -/
def sessionEnded (sessionID : UInt32) : Prog (Except Err Unit) :=
  (Program.locked .confirmed (ask (.takeOwned sessionID))).bind runRollback

end Netconf
end TriadSim
