import TriadSim.Datatree.Answers
import TriadSim.Router.Reachable

/-!
# An edit as a function of the content

An edit that is not cancelled and that nothing comes in between of is a function of the content it
finds: `amend` is what `Apply` makes of a content, or the error it answers.  `ensures_live_edit`
says so, and `amend_eq_ok_iff` takes a success apart.
-/

namespace TriadSim

open Go Library Router Store

/-! ## Texts without spaces around them -/

namespace Go

/-- A printable ASCII character other than the blank. -/
def graphic (byte : UInt8) : Bool :=
  0x21 ≤ byte && byte ≤ 0x7E

variable {runes : List GoString} {s : GoString}

/-- A text without a rune at its start keeps it. -/
theorem trimRunes_eq_self (hNone : ∀ rune ∈ runes, hasPrefix s rune = false) (fuel : Nat) :
    trimRunes runes fuel s = s := by
  cases fuel with
  | zero => rfl
  | succ fuel =>
    rw [trimRunes, List.find?_eq_none.mpr fun rune hRune => by simp [hNone rune hRune]]

/-- A space rune starts with no printable character. -/
theorem hasPrefix_eq_false_of_graphic
    (hRunes : (runes.all fun rune => rune.head?.any fun byte => !graphic byte) = true)
    (hHead : s.head?.any graphic = true) :
    ∀ rune ∈ runes, hasPrefix s rune = false := by
  intro rune hRune
  have hStart := List.all_eq_true.mp hRunes rune hRune
  cases rune with
  | nil => cases hStart
  | cons first more =>
    cases s with
    | nil => cases hHead
    | cons byte rest =>
      simp only [List.head?_cons, Option.any_some] at hStart hHead
      have hNe : first ≠ byte := by
        rintro rfl
        simp [hHead] at hStart
      simp [hasPrefix, List.isPrefixOf, hNe]

/-- A text that starts and ends with printable characters has no space around it. -/
theorem trimSpace_eq_self (hHead : s.head?.any graphic = true)
    (hLast : s.getLast?.any graphic = true) : trimSpace s = s := by
  unfold trimSpace
  dsimp only
  rw [trimRunes_eq_self (hasPrefix_eq_false_of_graphic (by decide) hHead)]
  rw [trimRunes_eq_self (hasPrefix_eq_false_of_graphic (by decide)
    (by rw [List.head?_reverse]; exact hLast))]
  exact List.reverse_reverse s

end Go

namespace Datatree

/-! ## Paths that the store takes -/

/-- The names on the way to a leaf are printable. -/
theorem graphic_leafShapes :
    ((leafShapes Model.Device.fields).all fun shape => shape.all fun part =>
      part.1.head?.any graphic && part.1.getLast?.any graphic) = true := by
  decide +kernel

theorem text_ne_nil {segment : Segment} (hName : segment.name ≠ []) : segment.text ≠ [] := by
  unfold Segment.text
  split
  · exact hName
  · simp [hName]

theorem head?_text (segment : Segment) (hName : segment.name ≠ []) :
    segment.text.head? = segment.name.head? := by
  unfold Segment.text
  split
  · rfl
  · cases hCases : segment.name with
    | nil => exact absurd hCases hName
    | cons byte rest => rfl

theorem getLast?_text (segment : Segment) :
    segment.text.getLast? = segment.name.getLast? ∨ segment.text.getLast? = some 93 := by
  unfold Segment.text
  split
  · exact Or.inl rfl
  · exact Or.inr List.getLast?_concat

theorem pathText_singleton (segment : Segment) : pathText [segment] = segment.text := by
  simp [pathText, join]

/-- A path starts as the name of its first segment does. -/
theorem head?_pathText_cons {first : Segment} (hName : first.name ≠ []) (rest : List Segment) :
    (pathText (first :: rest)).head? = first.name.head? := by
  rw [← head?_text first hName]
  cases rest with
  | nil => rw [pathText_singleton]
  | cons second more =>
    rw [← List.singleton_append, pathText_append (List.cons_ne_nil _ _) (List.cons_ne_nil _ _),
      pathText_singleton]
    exact List.head?_append_of_ne_nil _ (text_ne_nil hName)

/-- A path ends as its last segment does. -/
theorem getLast?_pathText_concat (lead : List Segment) {last : Segment} (hText : last.text ≠ []) :
    (pathText (lead ++ [last])).getLast? = last.text.getLast? := by
  cases lead with
  | nil => rw [List.nil_append, pathText_singleton]
  | cons first more =>
    rw [pathText_append (List.cons_ne_nil _ _) (List.cons_ne_nil _ _), pathText_singleton,
      List.append_cons]
    exact List.getLast?_append_of_ne_nil _ hText

variable {path : GoString} {r : Router} {content : Values}

/-- The store takes the path of every leaf. -/
theorem validPath_of_leafPath (hLeaf : LeafPath path) :
    validPath path = true := by
  obtain ⟨segments, hParse, hFound⟩ := hLeaf
  obtain ⟨found, hFound⟩ := Option.isSome_iff_exists.mp hFound
  obtain ⟨shape, hShape, hNames⟩ := shape_of_leafAt_eq_some hFound
  have hGraphic : ∀ segment ∈ segments, segment.name.head?.any graphic = true ∧
      segment.name.getLast?.any graphic = true := by
    intro segment hSegment
    have hName : segment.name ∈ shape.map Prod.fst := by
      rw [hNames]
      exact List.mem_map_of_mem hSegment
    obtain ⟨part, hPart, hSame⟩ := List.mem_map.mp hName
    have hBoth := List.all_eq_true.mp
      (List.all_eq_true.mp graphic_leafShapes shape hShape) part hPart
    rw [hSame] at hBoth
    exact Bool.and_eq_true_iff.mp hBoth
  have hNamed : ∀ segment ∈ segments, segment.name ≠ [] := by
    intro segment hSegment hNil
    have hHead := (hGraphic segment hSegment).1
    rw [hNil] at hHead
    cases hHead
  have hText := pathText_of_parse_eq_ok hParse
  have hSegments := ne_nil_of_parse_eq_ok hParse
  have hHead : path.head?.any graphic = true := by
    obtain ⟨first, rest, rfl⟩ := List.exists_cons_of_ne_nil hSegments
    rw [← hText, head?_pathText_cons (hNamed first List.mem_cons_self)]
    exact (hGraphic first List.mem_cons_self).1
  have hLast : path.getLast?.any graphic = true := by
    obtain ⟨lead, last, rfl⟩ := List.eq_nil_or_concat' segments |>.resolve_left hSegments
    have hMem : last ∈ lead ++ [last] := List.mem_append_right _ (List.mem_singleton_self _)
    rw [← hText, getLast?_pathText_concat lead (text_ne_nil (hNamed last hMem))]
    rcases getLast?_text last with hEnd | hEnd
    · rw [hEnd]
      exact (hGraphic last hMem).2
    · rw [hEnd]
      decide
  unfold parse at hParse
  split at hParse
  · cases hParse
  · next hNonempty =>
    split at hParse
    · cases hParse
    · next hSlashes =>
      simp only [Bool.or_eq_true, not_or, Bool.not_eq_true] at hSlashes
      simp [validPath, hNonempty, trimSpace_eq_self hHead hLast, hSlashes]

/-! ## The outcome of an edit -/

/-- What `Apply` makes of a content. -/
def amend (r : Router) (req : EditRequest) (content : Values) : Except Err Values := do
  let results ← (r.describeAll content).mapError failed
  let edited ← propose r req (editorOf results)
  let () ← (r.validate none edited.proposed).mapError validationError
  let original := (editorOf results).proposed
  let batch ← (r.convertAll ((changedLeaves original edited.proposed).map
    fun _ value => .leaf value)).mapError failed
  let leaves ← (Memory.checkValues batch).mapError failed
  match (droppedPaths original edited.proposed).find? fun path => !validPath path with
  | some path => .error (failed (Memory.invalidPath path))
  | none => .ok (FinMap.eraseAll (content ∪ leaves) (droppedPaths original edited.proposed))

section Live

variable {json : Json} {opts : Options} {machine : Machine json} {r : Router} {ds : Datastore}
  {req : EditRequest} {content : Values}

/-- The answer of an edit, and what the datastore holds after it. -/
def Amends (ds : Datastore) (before : Machine json) (amended : Except Err Values)
    (result : Except Err Unit) (after : Machine json) : Prop :=
  match amended with
  | .error err => result = .error err ∧ after = before
  | .ok new => result = .ok () ∧ after.memory.datastore ds = .ok new

variable {α : Type}

/-- The rest of an edit after one of its steps. -/
theorem ensures_live_step {step : Prog (Except Err α)} {next : α → Prog (Except Err Unit)}
    {result : Except Err α} {rest : α → Except Err Values}
    (hStep : step.LiveEnsures opts (fun found after => found = result ∧ after = machine) machine)
    (hNext : ∀ value, result = .ok value →
      (next value).LiveEnsures opts (Amends ds machine (rest value)) machine) :
    (andThen step next).LiveEnsures opts (Amends ds machine (result >>= rest)) machine := by
  refine ensures_andThen (hStep.mono ?_)
  rintro found after ⟨rfl, rfl⟩
  constructor
  · intro value hValue
    rw [hValue]
    exact hNext value hValue
  · intro err hError
    rw [hError]
    exact ⟨rfl, rfl⟩

/-- The batch is written as a whole, or the store refuses it. -/
theorem ensures_live_mutate_apply {batch : Std.ExtTreeMap GoString GoValue}
    {deletions : List GoString} (hContent : machine.memory.datastore ds = .ok content) :
    (ask (.mutate (.apply ds batch deletions))).LiveEnsures opts (fun result after =>
      Amends ds machine (do
        let leaves ← (Memory.checkValues batch).mapError failed
        match deletions.find? fun path => !validPath path with
        | some path => .error (failed (Memory.invalidPath path))
        | none => .ok (FinMap.eraseAll (content ∪ leaves) deletions))
        (result.mapError failed) after) machine := by
  rintro ⟨env, hLive⟩
  show Amends ds machine _ ((machine.memory.apply opts env ds batch deletions).1.mapError failed)
    { machine with memory := (machine.memory.apply opts env ds batch deletions).2 }
  unfold Memory.apply
  rw [hLive]
  dsimp only
  cases hCheck : Memory.checkValues batch with
  | error err => exact ⟨rfl, rfl⟩
  | ok leaves =>
    dsimp only
    cases hFind : deletions.find? fun path => !validPath path with
    | some path => exact ⟨rfl, rfl⟩
    | none =>
      rw [hContent]
      have hAfter : ((machine.memory.edit ds fun target => FinMap.eraseAll (target ∪ leaves)
          deletions).recordWrite opts env ds (leaves.keys ++ deletions)).contents =
          machine.memory.contents.edit ds fun target =>
            FinMap.eraseAll (target ∪ leaves) deletions := by
        rw [Memory.contents_recordWrite, Memory.contents_edit]
      exact ⟨rfl, datastore_of_contents_eq_edit hContent hAfter⟩

/-- The end of an edit, from its proposal on. -/
theorem ensures_live_applyDiff {original proposed : Values}
    (hContent : machine.memory.datastore ds = .ok content) :
    (applyDiff r ds original proposed).LiveEnsures opts (Amends ds machine (do
      let batch ← (r.convertAll ((changedLeaves original proposed).map
        fun _ value => .leaf value)).mapError failed
      let leaves ← (Memory.checkValues batch).mapError failed
      match (droppedPaths original proposed).find? fun path => !validPath path with
      | some path => .error (failed (Memory.invalidPath path))
      | none => .ok (FinMap.eraseAll (content ∪ leaves) (droppedPaths original proposed))))
      machine := by
  refine ensures_mapError (ensures_live_checkCtx ?_)
  cases hConvert :
      r.convertAll ((changedLeaves original proposed).map fun _ value => .leaf value) with
  | error err => exact ⟨rfl, rfl⟩
  | ok batch => exact ensures_live_mutate_apply hContent

/-- An edit that is not cancelled amends the content it finds. -/
theorem ensures_live_edit (hContent : machine.memory.datastore ds = .ok content) :
    (apply r ds req).LiveEnsures opts (Amends ds machine (amend r req content)) machine := by
  refine ensures_live_checkCtx (ensures_live_checkCtx (Program.Ensures.locked ?_))
  refine ensures_live_step (ensures_mapError ((ensures_live_values hContent).mono ?_)) ?_
  · rintro found after ⟨rfl, rfl⟩
    exact ⟨rfl, rfl⟩
  · intro results hResults
    refine ensures_live_step ⟨rfl, rfl⟩ ?_
    intro edited hEdited
    refine ensures_live_step (ensures_mapError ?_) fun _ _ => ensures_live_applyDiff hContent
    rintro ⟨env, hLive⟩
    show (r.validate env.ctx edited.proposed).mapError validationError = _ ∧ _
    rw [hLive]
    exact ⟨rfl, rfl⟩

end Live

/-! ## The edits that succeed -/

/-- The leaves that a batch converts can be stored. -/
theorem exists_checkValues_eq_ok {changed batch : Std.ExtTreeMap GoString GoValue}
    (hConvert : r.convertAll changed = .ok batch) :
    ∃ leaves, Memory.checkValues batch = .ok leaves := by
  refine FinMap.exists_traverse_eq_ok _ batch fun path value hValue => ?_
  obtain ⟨hSome, hNone⟩ := FinMap.traverse_eq_ok_image hConvert path
  cases hChanged : changed[path]? with
  | none =>
    rw [hNone hChanged] at hValue
    cases hValue
  | some old =>
    obtain ⟨image, hImage, hStored⟩ := hSome old hChanged
    rw [hValue, Option.some.injEq] at hStored
    subst hStored
    obtain ⟨converted, hConverted, rfl⟩ := map_eq_ok_iff.mp hImage
    obtain ⟨_, _, _, hLocate, _⟩ := convert_eq_ok hConverted
    have hPath := validPath_of_leafPath (leafPath_of_locate_eq_ok hLocate)
    exact ⟨converted.value, by simp [hPath, GoValue.toLeaf?]⟩

/-- Every path of a described content is one that the store takes. -/
theorem validPath_of_describeAll {results : Std.ExtTreeMap GoString Result}
    (hDescribe : r.describeAll content = .ok results) (hPath : path ∈ content) :
    validPath path = true := by
  obtain ⟨hContent, hSound⟩ := editorOf_spec hDescribe
  rw [← hContent] at hPath
  exact validPath_of_leafPath (hSound.leaves path hPath)

/-- An edit succeeds exactly if its proposal is valid and the leaves that it writes can be
converted, and it then leaves the difference to the proposal written. -/
theorem amend_eq_ok_iff {req : EditRequest} {new : Values} :
    amend r req content = .ok new ↔ ∃ edited, Accepts r req content edited ∧
      (∀ (path : GoString) value, (changedLeaves content edited.proposed)[path]? = some value →
        ∃ converted, r.convert path (.leaf value) = .ok converted) ∧
      new = written content edited.proposed := by
  constructor
  · intro hAmend
    obtain ⟨results, hResults, hAmend⟩ := bind_eq_ok_iff.mp hAmend
    obtain ⟨edited, hPropose, hAmend⟩ := bind_eq_ok_iff.mp hAmend
    obtain ⟨⟨⟩, hValid, hAmend⟩ := bind_eq_ok_iff.mp hAmend
    obtain ⟨batch, hConvert, hAmend⟩ := bind_eq_ok_iff.mp hAmend
    obtain ⟨leaves, hCheck, hAmend⟩ := bind_eq_ok_iff.mp hAmend
    rw [mapError_eq_ok_iff] at hResults hValid hConvert hCheck
    rw [(editorOf_spec hResults).1] at hConvert hAmend
    have hAccepts : Accepts r req content edited := ⟨⟨results, hResults, hPropose⟩, hValid⟩
    have hLeaves :=
      checkValues_of_convertAll_eq_ok (convert_changedLeaves hAccepts) hConvert hCheck
    subst hLeaves
    refine ⟨edited, hAccepts, ?_, ?_⟩
    · intro path value hChanged
      obtain ⟨image, hImage, _⟩ := (FinMap.traverse_eq_ok_image hConvert path).1 (.leaf value)
        (by rw [Std.ExtTreeMap.getElem?_map, hChanged]; rfl)
      obtain ⟨converted, hConverted, _⟩ := map_eq_ok_iff.mp hImage
      exact ⟨converted, hConverted⟩
    · split at hAmend
      · cases hAmend
      · cases hAmend
        rfl
  · rintro ⟨edited, hAccepts, hConverts, rfl⟩
    obtain ⟨⟨results, hResults, hPropose⟩, hValid⟩ := id hAccepts
    obtain ⟨batch, hConvert⟩ : ∃ batch, r.convertAll
        ((changedLeaves content edited.proposed).map fun _ value => .leaf value) = .ok batch := by
      refine FinMap.exists_traverse_eq_ok _ _ fun path value hValue => ?_
      rw [Std.ExtTreeMap.getElem?_map, Option.map_eq_some_iff] at hValue
      obtain ⟨leaf, hChanged, rfl⟩ := hValue
      obtain ⟨converted, hConverted⟩ := hConverts path leaf hChanged
      exact ⟨.leaf converted.value, by rw [hConverted]; rfl⟩
    obtain ⟨leaves, hCheck⟩ := exists_checkValues_eq_ok hConvert
    have hLeaves :=
      checkValues_of_convertAll_eq_ok (convert_changedLeaves hAccepts) hConvert hCheck
    have hDropped : (droppedPaths content edited.proposed).find? (fun path => !validPath path) =
        none := by
      rw [List.find?_eq_none]
      intro path hPath
      rw [validPath_of_describeAll hResults (mem_droppedPaths.mp hPath).1]
      simp
    refine bind_eq_ok_iff.mpr ⟨results, mapError_eq_ok_iff.mpr hResults, ?_⟩
    refine bind_eq_ok_iff.mpr ⟨edited, hPropose, ?_⟩
    refine bind_eq_ok_iff.mpr ⟨(), mapError_eq_ok_iff.mpr hValid, ?_⟩
    rw [(editorOf_spec hResults).1]
    refine bind_eq_ok_iff.mpr ⟨batch, mapError_eq_ok_iff.mpr hConvert, ?_⟩
    refine bind_eq_ok_iff.mpr ⟨leaves, mapError_eq_ok_iff.mpr hCheck, ?_⟩
    rw [hDropped, hLeaves]
    rfl

end Datatree
end TriadSim
