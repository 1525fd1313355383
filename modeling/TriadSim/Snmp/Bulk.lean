import TriadSim.Snmp.Walk

/-!
# GETBULK

`getBulk` of `internal/snmp/agent.go` answers the first variables like GETNEXT and then goes row
by row over the others, the repeaters, each with a cursor of its own.  The rows are shown to be
the iterated answers of GETNEXT, each repeater taken for itself.  The main result is
`bulk_rows_are_iterated_next`.
-/

namespace TriadSim
namespace Snmp

open Go Router

/-- `maxBulkRepetitions`. -/
def maxBulkRepetitions : Nat := 100

/-- A repeater between two rows: its cursor and whether it has run out. -/
structure Repeater where
  cursor : GoString
  ended : Bool

/-- The turn of a repeater in a row. -/
def Repeater.turn (bindings : List Binding) (repeater : Repeater) : PDU × Repeater :=
  if repeater.ended then (exception repeater.cursor .endOfMibView, repeater)
  else
    match next (sortedBindings bindings) repeater.cursor with
    | none => (exception repeater.cursor .endOfMibView, { repeater with ended := true })
    | some binding => (toPDU binding, ⟨binding.oid, false⟩)

/-- The rows of `getBulk`; a row in which every repeater has run out is the last one. -/
def bulkRows (bindings : List Binding) : Nat → List Repeater → List PDU
  | 0, _ => []
  | repetitions + 1, repeaters =>
    let turns := repeaters.map fun repeater => repeater.turn bindings
    if turns.all fun turn => turn.2.ended then turns.map Prod.fst
    else turns.map Prod.fst ++ bulkRows bindings repetitions (turns.map Prod.snd)

/-- The variables that `getBulk` answers, from the bindings it reads. -/
def answerBulk (bindings : List Binding) (nonRepeaters maxRepetitions : Nat)
    (names : List GoString) : List PDU :=
  answerNext bindings (names.take (min nonRepeaters names.length)) ++
    bulkRows bindings (min maxRepetitions maxBulkRepetitions)
      ((names.drop (min nonRepeaters names.length)).map fun name => ⟨name, false⟩)

/-! ## Iterated answers -/

/-- The answer of GETNEXT for one name. -/
def nextAnswer (bindings : List Binding) (name : GoString) : PDU :=
  match next (sortedBindings bindings) name with
  | some binding => toPDU binding
  | none => exception name .endOfMibView

/-- GETNEXT iterated: once, and then on the name of each answer, until the view has ended. -/
def iteratedNext (bindings : List Binding) (name : GoString) : Nat → PDU
  | 0 => nextAnswer bindings name
  | again + 1 =>
    let answer := iteratedNext bindings name again
    if answer.tag = .endOfMibView then answer else nextAnswer bindings answer.name

/-- The row with a number: the iterated answer of each repeater. -/
def bulkRow (bindings : List Binding) (names : List GoString) (number : Nat) : List PDU :=
  names.map fun name => iteratedNext bindings name number

/-- A row of nothing but ended views. -/
def AllEnded (row : List PDU) : Prop :=
  ∀ answer ∈ row, answer.tag = .endOfMibView

/-- Where a repeater stands before the row with a number. -/
def Stands (bindings : List Binding) (name : GoString) (repeater : Repeater) : Nat → Prop
  | 0 => repeater = ⟨name, false⟩
  | number + 1 =>
    let answer := iteratedNext bindings name number
    if answer.tag = .endOfMibView then
      repeater.ended = true ∧ exception repeater.cursor .endOfMibView = answer
    else repeater = ⟨answer.name, false⟩

section Turns

variable {bindings : List Binding}

/-- The turn of a repeater that has not run out. -/
theorem turn_of_open (bindings : List Binding) (name : GoString) :
    (Repeater.turn bindings ⟨name, false⟩).1 = nextAnswer bindings name ∧
      if (nextAnswer bindings name).tag = .endOfMibView then
        (Repeater.turn bindings ⟨name, false⟩).2 = ⟨name, true⟩ ∧
          exception name .endOfMibView = nextAnswer bindings name
      else (Repeater.turn bindings ⟨name, false⟩).2 = ⟨(nextAnswer bindings name).name, false⟩ := by
  unfold Repeater.turn nextAnswer
  cases next (sortedBindings bindings) name with
  | none => simp [exception]
  | some binding => simp [tag_toPDU]

/-- A turn gives the iterated answer and takes the repeater to the next row. -/
theorem turn_of_stands {name : GoString} {repeater : Repeater} {number : Nat}
    (hStands : Stands bindings name repeater number) :
    (repeater.turn bindings).1 = iteratedNext bindings name number ∧
      Stands bindings name (repeater.turn bindings).2 (number + 1) := by
  have hOpen : ∀ cursor, repeater = ⟨cursor, false⟩ →
      nextAnswer bindings cursor = iteratedNext bindings name number →
      (repeater.turn bindings).1 = iteratedNext bindings name number ∧
        Stands bindings name (repeater.turn bindings).2 (number + 1) := by
    rintro cursor rfl hAnswer
    obtain ⟨hFirst, hSecond⟩ := turn_of_open bindings cursor
    refine ⟨hFirst.trans hAnswer, ?_⟩
    simp only [Stands, ← hAnswer]
    split at hSecond
    · next hEnd => simp [hEnd, hSecond]
    · next hMore => simp [hMore, hSecond]
  cases number with
  | zero => exact hOpen name hStands rfl
  | succ number =>
    simp only [Stands] at hStands
    split at hStands
    · next hEnd =>
      have hTurn : repeater.turn bindings =
          (exception repeater.cursor .endOfMibView, repeater) := by
        rw [Repeater.turn, if_pos hStands.1]
      have hAgain : iteratedNext bindings name (number + 1) =
          iteratedNext bindings name number := by
        simp [iteratedNext, hEnd]
      rw [hTurn, hAgain]
      refine ⟨hStands.2, ?_⟩
      simp only [Stands, hAgain, hEnd, if_true]
      exact hStands
    · next hMore => exact hOpen _ hStands (by simp [iteratedNext, hMore])

theorem ended_iff_of_stands {name : GoString} {repeater : Repeater} {number : Nat}
    (hStands : Stands bindings name repeater (number + 1)) :
    repeater.ended = true ↔ (iteratedNext bindings name number).tag = .endOfMibView := by
  simp only [Stands] at hStands
  split at hStands
  · next hEnd => simp [hStands.1, hEnd]
  · next hMore => simp [hStands, hMore]

/-- The rows from a number on, by induction on how many are still allowed. -/
theorem bulkRows_eq (bindings : List Binding) (names : List GoString) (repetitions number : Nat)
    (state : GoString → Repeater)
    (hState : ∀ name, Stands bindings name (state name) number) :
    ∃ rows, rows ≤ repetitions ∧
      bulkRows bindings repetitions (names.map state) =
        (List.range' number rows).flatMap (bulkRow bindings names) ∧
      (∀ earlier, earlier + 1 < rows → ¬ AllEnded (bulkRow bindings names (number + earlier))) ∧
      (rows = repetitions ∨
        ∃ last, rows = last + 1 ∧ AllEnded (bulkRow bindings names (number + last))) := by
  induction repetitions generalizing number state with
  | zero => exact ⟨0, le_rfl, rfl, by simp, Or.inl rfl⟩
  | succ repetitions ih =>
    have hTurns := fun name => turn_of_stands (hState name)
    have hRow : ((names.map state).map fun repeater => repeater.turn bindings).map Prod.fst =
        bulkRow bindings names number := by
      simp [bulkRow, hTurns]
    have hEnded : (((names.map state).map fun repeater => repeater.turn bindings).all
        fun turn => turn.2.ended) = true ↔ AllEnded (bulkRow bindings names number) := by
      simp [AllEnded, bulkRow, ended_iff_of_stands (hTurns _).2]
    unfold bulkRows
    dsimp only
    rw [hRow]
    split
    · next hAll =>
      exact ⟨1, by omega, by simp, by omega, Or.inr ⟨0, rfl, hEnded.mp hAll⟩⟩
    · next hSome =>
      obtain ⟨rows, hRows, hRest, hEarlier, hLast⟩ := ih (number + 1)
        (fun name => ((state name).turn bindings).2) fun name => (hTurns name).2
      refine ⟨rows + 1, by omega, ?_, ?_, ?_⟩
      · rw [List.range'_succ, List.flatMap_cons, ← hRest]
        simp [Function.comp_def]
      · intro earlier hLess
        cases earlier with
        | zero => exact fun hAll => hSome (hEnded.mpr hAll)
        | succ earlier =>
          rw [show number + (earlier + 1) = number + 1 + earlier by omega]
          exact hEarlier earlier (by omega)
      · rcases hLast with rfl | ⟨last, rfl, hAll⟩
        · exact Or.inl rfl
        · refine Or.inr ⟨last + 1, rfl, ?_⟩
          rwa [show number + (last + 1) = number + 1 + last by omega]

end Turns

/-- GETBULK answers each non-repeater like GETNEXT, and then with rows of iterated answers: as many
as were asked for and are allowed, or up to the first row in which every view has ended. -/
theorem bulk_rows_are_iterated_next (bindings : List Binding) (nonRepeaters maxRepetitions : Nat)
    (names : List GoString) :
    ∃ rows, rows ≤ min maxRepetitions 100 ∧
      answerBulk bindings nonRepeaters maxRepetitions names =
        (names.take nonRepeaters).map (nextAnswer bindings) ++
          (List.range rows).flatMap (bulkRow bindings (names.drop nonRepeaters)) ∧
      (∀ earlier, earlier + 1 < rows →
        ¬ AllEnded (bulkRow bindings (names.drop nonRepeaters) earlier)) ∧
      (rows = min maxRepetitions 100 ∨
        ∃ last, rows = last + 1 ∧ AllEnded (bulkRow bindings (names.drop nonRepeaters) last)) := by
  obtain ⟨rows, hRows, hEq, hEarlier, hLast⟩ := bulkRows_eq bindings
    (names.drop nonRepeaters) (min maxRepetitions maxBulkRepetitions) 0 (fun name => ⟨name, false⟩)
    fun _ => rfl
  have hTake : names.take (min nonRepeaters names.length) = names.take nonRepeaters := by
    simp [List.take_eq_take_iff]
  have hDrop : names.drop (min nonRepeaters names.length) = names.drop nonRepeaters := by
    rw [← List.drop_eq_drop_min]
  refine ⟨rows, hRows, ?_, ?_, ?_⟩
  · rw [answerBulk, hTake, hDrop, hEq, List.range_eq_range']
    rfl
  · simpa using hEarlier
  · simpa [maxBulkRepetitions] using hLast

end Snmp
end TriadSim
