import TriadSim.Netconf.GetConfig
import TriadSim.System.Timeouts

/-!
# The timeout of a confirmed commit

`parseCommit` of `internal/netconf/ops/commit.go` reads the number of seconds as an `int` and
multiplies it by `time.Second` in 64 bits.  The product is the number of seconds as long as it
fits.  Beyond that it wraps around: what comes out negative arms the default timeout, and what
comes out positive arms a timer of some other duration.  The main result is
`rollback_timer_is_exact_iff`.
-/

namespace TriadSim

open Datatree Go Library Router Store

namespace Netconf

/-- `commitParams`. -/
structure CommitParams where
  confirmed : Bool
  timeout : Int64
  deriving DecidableEq

/-- The check of the optional `<source>`. -/
def commitSource (operation : Document) : Except Err Unit :=
  match operation.child "source" with
  | none => .ok ()
  | some source => do
      let datastore ← datastoreElement source
      if datastore = .candidate then .ok ()
      else .error (notSupported
        (.text ("commit source " ++ datastore.name ++ " is not supported")))

/-- `parseCommit`. -/
def parseCommit (operation : Document) : Except Err CommitParams := do
  commitSource operation
  for name in ([text "persist", text "persist-id"] : List GoString) do
    if (operation.child name).isSome then
      throw (notSupported
        (.text ("commit " ++ name ++ " is not supported by :confirmed-commit:1.0")))
  match operation.child "confirmed", operation.child "confirm-timeout" with
  | none, some _ => .error (missingElement "confirmed (it is required by confirm-timeout)")
  | none, none => .ok ⟨false, 0⟩
  | some _, none => .ok ⟨true, defaultConfirmTimeout⟩
  | some _, some timeout =>
    match (parseInt 64 (trimSpace timeout.text)).filter fun seconds => 0 < seconds with
    | none => .error (invalidValue (.text "confirm-timeout " ++
        .piece (.quoted (trimSpace timeout.text)) ++
        .text " is not a positive number of seconds"))
    | some seconds => .ok ⟨true, Int64.ofInt seconds * 1000000000⟩

end Netconf

open Netconf

/-- What an accepted timeout is, and the product that stands for it. -/
theorem timeout_of_parseCommit_eq_ok {operation timeout : Document} {params : CommitParams}
    (hParse : parseCommit operation = .ok params)
    (hTimeout : operation.child "confirm-timeout" = some timeout) :
    ∃ seconds : Int, parseInt 64 (trimSpace timeout.text) = some seconds ∧ 0 < seconds ∧
      params = ⟨true, Int64.ofInt seconds * 1000000000⟩ := by
  unfold parseCommit at hParse
  obtain ⟨_, _, hParse⟩ := bind_eq_ok_iff.mp hParse
  obtain ⟨_, _, hParse⟩ := bind_eq_ok_iff.mp hParse
  rw [hTimeout] at hParse
  cases hConfirmed : operation.child "confirmed" with
  | none => simp [hConfirmed] at hParse
  | some confirmed =>
    simp only [hConfirmed] at hParse
    split at hParse
    · cases hParse
    · next seconds hSeconds =>
      obtain ⟨hText, hPositive⟩ := Option.filter_eq_some_iff.mp hSeconds
      exact ⟨seconds, hText, by simpa using hPositive, (Except.ok.inj hParse).symm⟩

/-- The timeout is that of the text exactly as long as the product fits into 64 bits. -/
theorem toInt_confirmTimeout_iff {seconds : Int} (hPositive : 0 < seconds) :
    (confirmTimeout (Int64.ofInt seconds * 1000000000)).toInt = seconds * 1000000000 ↔
      seconds ≤ 9223372036 := by
  have hProduct : (Int64.ofInt seconds * 1000000000).toInt =
      (seconds * 1000000000).bmod (2 ^ 64) := by
    rw [Int64.toInt_mul, Int64.toInt_ofInt, Int.bmod_mul_bmod]
    rfl
  constructor
  · intro hSame
    have hBound := Int64.toInt_lt (confirmTimeout (Int64.ofInt seconds * 1000000000))
    omega
  · intro hSmall
    have hExact : (Int64.ofInt seconds * 1000000000).toInt = seconds * 1000000000 := by
      rw [hProduct, Int.bmod_eq_of_le (by omega) (by omega)]
    have hOver : ¬ Int64.ofInt seconds * 1000000000 ≤ 0 := by
      rw [Int64.le_iff_toInt_le, hExact]
      simp
      omega
    rw [confirmTimeout, if_neg hOver, hExact]

/-- The timer that an accepted timeout arms or restarts runs for the seconds of its text exactly if
there are at most 9223372036 of them. -/
theorem rollback_timer_is_exact_iff {json : Json} (opts : Options) (env : Nat → CallEnv)
    (sessionID : UInt32) (rollback : Rollback) (state : LockSite json)
    (operation timeout : Document)
    (params : CommitParams) (seconds : Int) (handle : TimerHandle)
    (hParse : parseCommit operation = .ok params)
    (hTimeout : operation.child "confirm-timeout" = some timeout)
    (hSeconds : parseInt 64 (trimSpace timeout.text) = some seconds)
    (hOk : (state.apply opts env sessionID params.timeout rollback).result = .ok ())
    (hHandle : (state.apply opts env sessionID params.timeout rollback).after.site.pendTimer =
      some handle) :
    ∃ timer,
      (state.apply opts env sessionID params.timeout rollback).after.site.timers[handle.id]? =
        some timer ∧
      (timer.deadline - state.site.now = seconds * 1000000000 ↔ seconds ≤ 9223372036) := by
  obtain ⟨accepted, hText, hPositive, rfl⟩ := timeout_of_parseCommit_eq_ok hParse hTimeout
  cases hText.symm.trans hSeconds
  have hDeadline : ∀ site : Site json, site.now = state.site.now →
      (site.deadline (Int64.ofInt seconds * 1000000000) - state.site.now = seconds * 1000000000 ↔
        seconds ≤ 9223372036) := by
    intro site hNow
    rw [Site.deadline, hNow, add_sub_cancel_left]
    exact toInt_confirmTimeout_iff hPositive
  unfold LockSite.apply at hOk hHandle ⊢
  dsimp only at hOk hHandle ⊢
  rw [hOk] at hHandle ⊢
  simp only [Except.isOk, Except.toBool, if_true] at hHandle ⊢
  cases hPend : state.site.machine.confirmed.pend with
  | none =>
    rw [hPend] at hHandle
    cases hHandle
    exact ⟨_, (FinMap.getElem?_insert_ite ..).trans (if_pos rfl), hDeadline _ rfl⟩
  | some pend =>
    -- A follow-up restarts the timer of the commit in progress.
    simp only [hPend] at hHandle ⊢
    rw [Site.reset_eq] at hHandle
    dsimp only at hHandle
    rw [Site.timers_reset hHandle]
    exact ⟨_, (FinMap.getElem?_insert_ite ..).trans (if_pos rfl), hDeadline _ rfl⟩

/-- A confirmed commit with a timeout. -/
def confirmedCommit (timeout : GoString) : Document :=
  .mk "commit" [] [] [.mk "confirmed" [] [] [], .mk "confirm-timeout" timeout [] []]

/-- A first confirmed commit on the process with a VLAN in candidate. -/
def labCommit (timeout : Int64) : LockRecord Json.plain :=
  (LockSite.start labMachine).apply (defaultRouter.options []) (fun _ => CallEnv.quiet) 1 timeout
    labRollback

/-- The duration of the timer that a text arms there, in nanoseconds. -/
def armedDuration (timeout : GoString) : Option Int := do
  let params ← (parseCommit (confirmedCommit timeout)).toOption
  let handle ← (labCommit params.timeout).after.site.pendTimer
  let timer ← (labCommit params.timeout).after.site.timers[handle.id]?
  return timer.deadline - (labCommit params.timeout).before.site.now

theorem thirty_seconds_are_exact :
    ∃ handle timer, (labCommit 30000000000).after.site.pendTimer = some handle ∧
      (labCommit 30000000000).after.site.timers[handle.id]? = some timer ∧
      timer.deadline - (LockSite.start labMachine).site.now = 30 * 1000000000 := by
  have hArmed : (labCommit 30000000000).after.site.pendTimer.isSome = true := by decide +kernel
  obtain ⟨handle, hHandle⟩ := Option.isSome_iff_exists.mp hArmed
  obtain ⟨timer, hTimer, hExact⟩ := rollback_timer_is_exact_iff (defaultRouter.options [])
    (fun _ => CallEnv.quiet) 1 labRollback (LockSite.start labMachine) (confirmedCommit "30") _
    ⟨true, 30000000000⟩ 30 handle (by decide +kernel) rfl (by decide +kernel) (by decide +kernel)
    hHandle
  exact ⟨handle, timer, hHandle, hTimer, hExact.mpr (by norm_num)⟩

/-- 9223372037 seconds arm the default timeout of ten minutes, and 18446744074 seconds, more than
500 years, arm a third of a second. -/
theorem long_timeouts_wrap_around :
    armedDuration "9223372037" = some 600000000000 ∧
      armedDuration "18446744074" = some 290448384 := by
  constructor <;> decide +kernel

end TriadSim
