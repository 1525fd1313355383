import TriadSim.Router.Ops

/-!
# A request that runs alone and is not cancelled

The rules for a program whose calls all find a live context.  Such a program sees the errors
of the store and of its own checks, but none of its surroundings.
-/

namespace TriadSim

open Library Router Store

section Live

variable {json : Json}

/-- The surroundings of a call that is not cancelled. -/
abbrev LiveEnv := {env : CallEnv // env.ctx = none}

/-- What a call does that is not cancelled. -/
abbrev liveHandle (json : Json) (opts : Options) :
    Program.Handler Request Request.Response LiveEnv (Machine json) :=
  fun env => Machine.handle opts env.1

/-- From `machine`, run alone and not cancelled, a program ends with `post`. -/
abbrev Prog.LiveEnsures {α : Type} (opts : Options) (program : Prog α)
    (post : α → Machine json → Prop) (machine : Machine json) : Prop :=
  Program.Ensures (liveHandle json opts) program post machine

variable {opts : Options} {machine : Machine json} {r : Router} {α : Type}

theorem Prog.LiveEnsures.run {program : Prog α} {post : α → Machine json → Prop}
    (hEnsures : program.LiveEnsures opts post machine) (env : Nat → CallEnv)
    (hLive : ∀ index, (env index).ctx = none) :
    post (program.run opts env machine).1 (program.run opts env machine).2 := by
  have hRun := Program.Ensures.exec hEnsures fun index => ⟨env index, hLive index⟩
  obtain ⟨hResult, hMachine⟩ := Program.exec_comap (Machine.handle opts)
    (fun live : LiveEnv => live.1) program (fun index => ⟨env index, hLive index⟩) machine
  rw [hResult, hMachine] at hRun
  exact hRun

theorem ensures_live_checkCtx {next : Prog (Except Err α)}
    {post : Except Err α → Machine json → Prop}
    (hNext : next.LiveEnsures opts post machine) :
    (checkCtx next).LiveEnsures opts post machine := by
  rintro ⟨env, hLive⟩
  have hCtx : (liveHandle json opts ⟨env, hLive⟩ .ctxErr machine).1 = none := hLive
  rw [hCtx]
  exact hNext

/-- The read of a datastore through the router. -/
theorem ensures_live_values {ds : Datastore} {content : Values}
    (hContent : machine.memory.datastore ds = .ok content) :
    (r.values ds).LiveEnsures opts (fun result after =>
      after = machine ∧ result = r.describeAll content) machine := by
  refine ensures_live_checkCtx (ensures_andThen ?_)
  rintro ⟨env, hLive⟩
  have hValues : machine.memory.values env ds = .ok content := by
    rw [Memory.values, hLive]
    exact hContent
  refine ⟨?_, fun err hError => by cases hValues.symm.trans hError⟩
  intro found hFound
  cases hValues.symm.trans hFound
  exact ⟨rfl, rfl⟩

end Live

end TriadSim
