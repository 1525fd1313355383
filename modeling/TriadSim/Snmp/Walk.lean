import TriadSim.Library.Search
import TriadSim.Snmp.Set

/-!
# Walking the index

`internal/snmp/oid.go` and `agent.go`: GETNEXT answers the first binding whose OID sorts after the
one asked for.  A manager walks the device by asking for the OID of each answer, until the view
ends.  The main result is `walk_answers_all_bindings_beyond`.
-/

namespace TriadSim
namespace Snmp

open Go Library Router

/-- `next`: the first binding whose OID sorts after `oid`. -/
def next (sorted : List Binding) (oid : GoString) : Option Binding :=
  let name := trimOID oid
  sorted[search sorted.length fun index =>
    sorted[index]?.any fun binding => compareOID binding.oid name = .gt]?

/-- `exception`. -/
def exception (oid : GoString) (tag : Tag) : PDU :=
  ⟨trimOID oid, tag, .nil⟩

/-- The loop of `getNext` over the variables of a request, from the bindings it reads. -/
def answerNext (bindings : List Binding) (names : List GoString) : List PDU :=
  names.map fun name =>
    match next (sortedBindings bindings) name with
    | some binding => toPDU binding
    | none => exception name .endOfMibView

/-- The answers to a walk: each asks for the name of the answer before, until the view
ends. -/
def walk (bindings : List Binding) : Nat → GoString → List PDU
  | 0, _ => []
  | fuel + 1, name =>
    (answerNext bindings [name]).flatMap fun answer =>
      if answer.tag = .endOfMibView then [answer] else answer :: walk bindings fuel answer.name

/-! ## Numeric OIDs -/

/-- The sub-identifiers of an OID, if all are decimal numbers below `2 ^ 63`. -/
def subIdentifiers (oid : GoString) : Option (List Nat) :=
  (split (trimOID oid) 46).mapM (parseUint 63)

variable {n : Nat} {component : GoString} {ns ms : List Nat} {name : GoString} {binding : Binding}
    {start : List Nat}

theorem signOf_of_digitsValue_eq_some {digits : GoString} {value : Nat}
    (hDigits : digitsValue value digits = some n) : signOf digits = (false, digits) := by
  cases digits with
  | nil => rfl
  | cons byte rest =>
    rw [digitsValue] at hDigits
    split at hDigits
    · next hDigit =>
      unfold signOf
      split
      · next hByte =>
        rw [(List.cons.inj hByte).1] at hDigit
        cases hDigit
      · next hByte =>
        rw [(List.cons.inj hByte).1] at hDigit
        cases hDigit
      · rfl
    · cases hDigits

theorem oidNumber?_of_parseUint_eq_some (hParse : parseUint 63 component = some n) :
    oidNumber? component = some (n : Int) := by
  have hParts : component ≠ [] ∧ digitsValue 0 component = some n ∧ n < 2 ^ 63 := by
    unfold parseUint at hParse
    simp only [Option.bind_eq_bind, Option.bind_eq_some_iff, Option.guard_eq_some', Option.pure_def,
      Option.some.injEq] at hParse
    obtain ⟨_, hNonempty, value, hDigits, _, hBound, rfl⟩ := hParse
    exact ⟨hNonempty, hDigits, hBound⟩
  obtain ⟨hNonempty, hDigits, hBound⟩ := hParts
  have hBound' : n < 9223372036854775808 := hBound
  rw [oidNumber?, parseInt, signOf_of_digitsValue_eq_some hDigits]
  simp [hNonempty, hDigits, hBound', guard]

theorem mapM_cons_eq_some {components : List GoString}
    (hNumbers : (component :: components).mapM (parseUint 63) = some ns) :
    ∃ (n : Nat) (rest : List Nat), oidNumber? component = some (n : Int) ∧
      components.mapM (parseUint 63) = some rest ∧ ns = n :: rest := by
  rw [List.mapM_cons] at hNumbers
  simp only [Option.bind_eq_bind, Option.bind_eq_some_iff, Option.pure_def,
    Option.some.injEq] at hNumbers
  obtain ⟨n, hFirst, rest, hRest, rfl⟩ := hNumbers
  exact ⟨n, rest, oidNumber?_of_parseUint_eq_some hFirst, hRest, rfl⟩

theorem mapM_nil_eq_some (hNumbers : ([] : List GoString).mapM (parseUint 63) = some ns) :
    ns = [] := by
  rw [List.mapM_nil] at hNumbers
  exact (Option.some.inj hNumbers).symm

/-- Components that are numbers compare as the lists of these numbers. -/
theorem compareComponents_eq_iff {as bs : List GoString} (hLeft : as.mapM (parseUint 63) = some ms)
    (hRight : bs.mapM (parseUint 63) = some ns) :
    (compareComponents as bs = .lt ↔ ms < ns) ∧ (compareComponents as bs = .gt ↔ ns < ms) := by
  induction as generalizing bs ms ns with
  | nil =>
    cases mapM_nil_eq_some hLeft
    cases bs with
    | nil =>
      cases mapM_nil_eq_some hRight
      simp [compareComponents]
    | cons b bs =>
      obtain ⟨n, rest, _, _, rfl⟩ := mapM_cons_eq_some hRight
      simp [compareComponents]
  | cons a as ih =>
    obtain ⟨m, ms, hFirst, hRest, rfl⟩ := mapM_cons_eq_some hLeft
    cases bs with
    | nil =>
      cases mapM_nil_eq_some hRight
      simp [compareComponents]
    | cons b bs =>
      obtain ⟨n, ns, hSecond, hRest', rfl⟩ := mapM_cons_eq_some hRight
      obtain ⟨hLess, hGreater⟩ := ih hRest hRest'
      rw [compareComponents, hFirst, hSecond, List.cons_lt_cons_iff, List.cons_lt_cons_iff]
      dsimp only
      -- The first components decide, unless they are the same.
      rcases lt_trichotomy m n with hOrder | rfl | hOrder
      · have hCompare : compare (m : Int) n = .lt := by
          rw [compare_lt_iff_lt]
          exact_mod_cast hOrder
        rw [hCompare]
        constructor
        · simp [hOrder]
        · simp [hOrder.not_gt, hOrder.ne']
      · have hCompare : compare (m : Int) m = .eq := compare_eq_iff_eq.mpr rfl
        rw [hCompare]
        simpa using ⟨hLess, hGreater⟩
      · have hCompare : compare (m : Int) n = .gt := by
          rw [compare_gt_iff_gt]
          exact_mod_cast hOrder
        rw [hCompare]
        constructor
        · simp [hOrder.not_gt, hOrder.ne']
        · simp [hOrder]

/-- `CompareOID` on numeric OIDs is the order of their sub-identifiers. -/
theorem compareOID_eq_iff {a b : GoString} (hLeft : subIdentifiers a = some ms)
    (hRight : subIdentifiers b = some ns) :
    (compareOID a b = .lt ↔ ms < ns) ∧ (compareOID a b = .gt ↔ ns < ms) :=
  compareComponents_eq_iff hLeft hRight

/-- A numeric OID has one leading dot at most. -/
theorem trimOID_trimOID (hName : subIdentifiers name = some ns) :
    trimOID (trimOID name) = trimOID name := by
  generalize hTrimmed : trimOID name = trimmed at *
  unfold trimOID trimLead
  split
  · next hDot =>
    obtain ⟨rest, rfl⟩ := List.isPrefixOf_iff_prefix.mp hDot
    have hParts : split (text "." ++ rest) 46 = [] :: split rest 46 :=
      List.splitOn_append_cons_self [] rest
    rw [subIdentifiers, hTrimmed, hParts] at hName
    obtain ⟨n, numbers, hFirst, _⟩ := mapM_cons_eq_some hName
    cases hFirst
  · rfl

/-! ## The walk -/

/-- The place of a binding in the numeric order. -/
def place (binding : Binding) : List Nat :=
  (subIdentifiers binding.oid).getD []

/-- Bindings with numeric OIDs that are pairwise distinct. -/
structure NumericIndex (bindings : List Binding) : Prop where
  numeric : ∀ binding ∈ bindings, (subIdentifiers binding.oid).isSome = true
  distinct : bindings.Pairwise fun first second =>
    subIdentifiers first.oid ≠ subIdentifiers second.oid

variable {bindings : List Binding}

theorem subIdentifiers_eq_place (hIndex : NumericIndex bindings) (hBinding : binding ∈ bindings) :
    subIdentifiers binding.oid = some (place binding) := by
  obtain ⟨ns, hNumbers⟩ := Option.isSome_iff_exists.mp (hIndex.numeric binding hBinding)
  rw [place, hNumbers]
  rfl

theorem mem_sortedBindings :
    binding ∈ sortedBindings bindings ↔ binding ∈ bindings :=
  (List.perm_insertionSort _ bindings).mem_iff

/-- The sorted bindings are in strictly increasing order. -/
theorem pairwise_sortedBindings (hIndex : NumericIndex bindings) :
    (sortedBindings bindings).Pairwise fun first second => place first < place second := by
  have hLe : (sortedBindings bindings).Pairwise fun first second => place first ≤ place second := by
    rw [← List.pairwise_map, sortedBindings, List.map_insertionSort _ (· ≤ ·) place bindings]
    · exact List.pairwise_insertionSort _ _
    · intro first hFirst second hSecond
      have hCompare := compareOID_eq_iff (subIdentifiers_eq_place hIndex hFirst)
        (subIdentifiers_eq_place hIndex hSecond)
      rw [Ne, hCompare.2, not_lt]
  have hDistinct : (sortedBindings bindings).Pairwise fun first second =>
      subIdentifiers first.oid ≠ subIdentifiers second.oid :=
    (List.perm_insertionSort _ bindings).symm.pairwise hIndex.distinct fun hNe => hNe.symm
  refine (hLe.and hDistinct).imp_of_mem ?_
  rintro first second hFirst hSecond ⟨hOrder, hNe⟩
  refine lt_of_le_of_ne hOrder fun hSame => hNe ?_
  rw [subIdentifiers_eq_place hIndex (mem_sortedBindings.mp hFirst),
    subIdentifiers_eq_place hIndex (mem_sortedBindings.mp hSecond), hSame]

/-- The bindings beyond a start, in the order of the index. -/
def beyond (bindings : List Binding) (start : List Nat) : List Binding :=
  (sortedBindings bindings).filter fun binding => start < place binding

/-- `next` answers the first binding beyond the OID. -/
theorem next_eq_head? (hIndex : NumericIndex bindings) (hName : subIdentifiers name = some start) :
    next (sortedBindings bindings) name = (beyond bindings start).head? := by
  have hTrimmed : subIdentifiers (trimOID name) = some start := by
    rw [subIdentifiers, trimOID_trimOID hName]
    exact hName
  have hTest : ∀ binding ∈ sortedBindings bindings,
      decide (compareOID binding.oid (trimOID name) = .gt) = decide (start < place binding) := by
    intro binding hBinding
    rw [decide_eq_decide, (compareOID_eq_iff
      (subIdentifiers_eq_place hIndex (mem_sortedBindings.mp hBinding)) hTrimmed).2]
  have hMono : (sortedBindings bindings).Pairwise fun first second =>
      decide (compareOID first.oid (trimOID name) = .gt) = true →
      decide (compareOID second.oid (trimOID name) = .gt) = true := by
    refine (pairwise_sortedBindings hIndex).imp_of_mem ?_
    intro first second hFirst hSecond hOrder hBeyond
    rw [hTest first hFirst, decide_eq_true_eq] at hBeyond
    rw [hTest second hSecond, decide_eq_true_eq]
    exact hBeyond.trans hOrder
  rw [next, getElem?_search hMono, beyond, List.head?_filter]
  exact List.find?_congr hTest

/-- The name a walk ends with: that of the last answer. -/
def lastName (name : GoString) (visited : List Binding) : GoString :=
  (visited.getLast?.map Binding.oid).getD name

@[simp] theorem name_toPDU (binding : Binding) : (toPDU binding).name = binding.oid := by
  unfold toPDU
  split <;> rfl

theorem tag_toPDU (binding : Binding) : (toPDU binding).tag ≠ .endOfMibView := by
  unfold toPDU
  split <;> simp

/-- One request of a walk. -/
theorem walk_succ (fuel : Nat) (name : GoString) :
    walk bindings (fuel + 1) name = match next (sortedBindings bindings) name with
      | some binding => toPDU binding :: walk bindings fuel binding.oid
      | none => [exception name .endOfMibView] := by
  rw [walk, answerNext, List.map_singleton, List.flatMap_singleton]
  cases next (sortedBindings bindings) name with
  | none => rfl
  | some binding =>
    dsimp only
    rw [if_neg (tag_toPDU binding), name_toPDU]

/-- A walk goes through the bindings beyond its start one by one, by induction on what is
left of them. -/
theorem walk_eq_beyond (hIndex : NumericIndex bindings) (visited : List Binding) (name : GoString)
    (hName : subIdentifiers name = some start) (hVisited : beyond bindings start = visited)
    (fuel : Nat) (hFuel : visited.length < fuel) :
    walk bindings fuel name =
      visited.map toPDU ++ [exception (lastName name visited) .endOfMibView] := by
  induction visited generalizing name start fuel with
  | nil =>
    obtain ⟨fuel, rfl⟩ := Nat.exists_eq_succ_of_ne_zero (Nat.ne_of_gt hFuel)
    rw [walk_succ, next_eq_head? hIndex hName, hVisited]
    rfl
  | cons binding visited ih =>
    obtain ⟨fuel, rfl⟩ := Nat.exists_eq_succ_of_ne_zero (Nat.ne_zero_of_lt hFuel)
    have hBinding : binding ∈ bindings := by
      have hMem : binding ∈ beyond bindings start := by
        rw [hVisited]
        exact List.mem_cons_self
      exact mem_sortedBindings.mp (List.mem_of_mem_filter hMem)
    have hRest : beyond bindings (place binding) = visited :=
      filter_lt_of_filter_lt_eq_cons (pairwise_sortedBindings hIndex) hVisited
    have hWalk := ih binding.oid (subIdentifiers_eq_place hIndex hBinding) hRest fuel
      (Nat.lt_of_succ_lt_succ hFuel)
    rw [walk_succ, next_eq_head? hIndex hName, hVisited, List.head?_cons]
    dsimp only
    rw [hWalk, List.map_cons, List.cons_append]
    cases visited with
    | nil => rfl
    | cons second visited => rw [lastName, lastName, List.getLast?_cons_cons]; rfl

/-- A walk from a numeric OID answers exactly the bindings beyond it, each once and in
strictly increasing order, and then the end of the view. -/
theorem walk_answers_all_bindings_beyond (bindings : List Binding) (name : GoString)
    (start : List Nat) (hIndex : NumericIndex bindings) (hName : subIdentifiers name = some start)
    (fuel : Nat) (hFuel : bindings.length < fuel) :
    ∃ visited, visited.Perm (bindings.filter fun binding => start < place binding) ∧
      visited.Pairwise (fun first second => place first < place second) ∧
      walk bindings fuel name =
        visited.map toPDU ++ [exception (lastName name visited) .endOfMibView] := by
  refine ⟨beyond bindings start, (List.perm_insertionSort _ bindings).filter _,
    (pairwise_sortedBindings hIndex).filter _, ?_⟩
  refine walk_eq_beyond hIndex _ name hName rfl fuel ?_
  calc (beyond bindings start).length ≤ (sortedBindings bindings).length :=
        List.length_filter_le _ _
    _ = bindings.length := (List.perm_insertionSort _ bindings).length_eq
    _ < fuel := hFuel

/-- Two rows of the interface table, out of order, and a scalar. -/
def sampleBindings : List Binding :=
  [⟨"1.3.6.1.2.1.2.2.1.1.10", [], .leaf (.int 10), .integer, false⟩,
    ⟨"1.3.6.1.2.1.2.2.1.1.9", [], .leaf (.int 9), .integer, false⟩,
    ⟨"1.3.6.1.2.1.1.5.0", "system-info/name", .leaf (.string "edge"), .octetString, true⟩]

theorem numericIndex_sampleBindings : NumericIndex sampleBindings where
  numeric := by decide +kernel
  distinct := by decide +kernel

theorem walk_from_scalar_answers_rows_in_order :
    ∃ visited, visited.Perm (sampleBindings.filter fun binding =>
        [1, 3, 6, 1, 2, 1, 1, 5, 0] < place binding) ∧
      visited.Pairwise (fun first second => place first < place second) ∧
      walk sampleBindings 4 ".1.3.6.1.2.1.1.5.0" = visited.map toPDU ++
        [exception (lastName ".1.3.6.1.2.1.1.5.0" visited) .endOfMibView] :=
  walk_answers_all_bindings_beyond sampleBindings ".1.3.6.1.2.1.1.5.0" [1, 3, 6, 1, 2, 1, 1, 5, 0]
    numericIndex_sampleBindings (by decide +kernel) 4 (by decide)

end Snmp
end TriadSim
