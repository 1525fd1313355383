import TriadSim.Datatree.Frame
import TriadSim.Router.SignedZero

/-!
# The effect of an edit

What `apply` does when nobody else touches the store: either it fails and the three datastores
keep their contents, or its proposal passes validation and the difference is written to the
target.  `Accepts.written` is about the difference, `edit_alone_is_atomic_valid_and_framed` about
the edit.
-/

namespace TriadSim

open Go Library Store

/-! ## Rules -/

section Rules

variable {α β : Type} {json : Json} {opts : Options} {machine : Machine json}

/-- From `machine`, run alone in any surroundings, a program ends with `post`. -/
abbrev Prog.Ensures (opts : Options) (program : Prog α) (post : α → Machine json → Prop)
    (machine : Machine json) : Prop :=
  Program.Ensures (Machine.handle opts) program post machine

theorem Prog.Ensures.run {program : Prog α} {post : α → Machine json → Prop}
    (hEnsures : program.Ensures opts post machine) (env : Nat → CallEnv) :
    post (program.run opts env machine).1 (program.run opts env machine).2 :=
  Program.Ensures.exec hEnsures env

namespace Router

variable {next : α → Prog (Except Err β)} {post : Except Err α → Machine json → Prop}
    {content : Values}

theorem ensures_checkCtx {next : Prog (Except Err α)} (hFailed : ∀ err, post (.error err) machine)
    (hNext : next.Ensures opts post machine) : (checkCtx next).Ensures opts post machine := by
  intro env
  generalize (Machine.handle opts env .ctxErr machine).1 = ctx
  cases ctx with
  | some err => exact hFailed err
  | none => exact hNext

/-- A step that is a plain value. -/
theorem ensures_andThen_ret {result : Except Err α} {post : Except Err β → Machine json → Prop}
    (hOk : ∀ value, result = .ok value → (next value).Ensures opts post machine)
    (hError : ∀ err, post (.error err) machine) :
    (andThen (.ret result) next).Ensures opts post machine :=
  ensures_andThen ⟨hOk, fun err _ => hError err⟩

theorem ensures_mapError {Env State : Type}
    {handle : Program.Handler Request Request.Response Env State} {state : State} {f : Err → Err}
    {program : Prog (Except Err α)} {post : Except Err α → State → Prop}
    (hProgram : Program.Ensures handle program (fun result => post (result.mapError f)) state) :
    Program.Ensures handle (Datatree.mapError f program) post state := by
  refine Program.Ensures.bind hProgram ?_
  rintro (err | value) after hResult
  · exact hResult
  · exact hResult

variable {r : Router}

/-- The read of a whole datastore through the router. -/
theorem ensures_values {ds : Datastore}
    {post : Except Err (Std.ExtTreeMap GoString Result) → Machine json → Prop}
    (hOk : ∀ content results, machine.memory.datastore ds = .ok content →
      r.describeAll content = .ok results → post (.ok results) machine)
    (hError : ∀ err, post (.error err) machine) :
    (r.values ds).Ensures opts post machine := by
  refine ensures_checkCtx hError (ensures_andThen fun env => ⟨?_, fun err _ => hError err⟩)
  intro content hRead
  have hContent : machine.memory.datastore ds = .ok content :=
    Memory.datastore_of_values_eq_ok hRead
  show post (r.describeAll content) machine
  cases hDescribe : r.describeAll content with
  | error err => exact hError err
  | ok results => exact hOk content results hContent hDescribe

/-- A content passes validation only under a live context. -/
theorem validate_eq_ok {ctx : Option Err} (hValid : r.validate ctx content = .ok ()) :
    r.validate none content = .ok () := by
  cases ctx with
  | none => exact hValid
  | some err => cases hValid

theorem ensures_validateProg {post : Except Err Unit → Machine json → Prop}
    (hOk : r.validate none content = .ok () → post (.ok ()) machine)
    (hError : ∀ err, post (.error err) machine) :
    (r.validateProg content).Ensures opts post machine := by
  intro env
  show post (r.validate env.ctx content) machine
  cases hValid : r.validate env.ctx content with
  | error err => exact hError err
  | ok done => exact hOk (validate_eq_ok hValid)

/-- A mutating store call has its effect, or fails and leaves the contents alone. -/
theorem ensures_mutate {op : Mutation} {post : Except Err Unit → Machine json → Prop}
    (hOk : ∀ env after, op.Effect opts env machine.memory after.contents → post (.ok ()) after)
    (hError : ∀ err after, after.contents = machine.contents → post (.error err) after) :
    (ask (.mutate op)).Ensures opts post machine := by
  intro env
  show post (machine.memory.mutate opts env op).1
    { machine with memory := (machine.memory.mutate opts env op).2 }
  rcases machine.memory.mutate_meets opts env op with ⟨hResult, hEffect⟩ | ⟨err, hResult, hSame⟩
  · rw [hResult]
    exact hOk env _ hEffect
  · rw [hResult]
    exact hError err _ hSame

end Router

end Rules

namespace Datatree

open Router

/-! ## The write-back -/

/-- The content after the difference to a proposal has been written. -/
def written (original proposed : Values) : Values :=
  FinMap.eraseAll (original ∪ changedLeaves original proposed) (droppedPaths original proposed)

theorem getElem?_changedLeaves (original proposed : Values) (path : GoString) :
    (changedLeaves original proposed)[path]? = (proposed[path]?).filter fun value =>
      !(original[path]?.any fun old => Leaf.goEq old value) := by
  rw [changedLeaves, Std.ExtTreeMap.getElem?_filter']

variable {path : GoString} {r : Router} {content : Values}

variable {original proposed : Values} {results : Std.ExtTreeMap GoString Result} {req : EditRequest}
    {edited : Editor}

theorem mem_droppedPaths :
    path ∈ droppedPaths original proposed ↔ path ∈ original ∧ path ∉ proposed := by
  simp [droppedPaths, Std.ExtTreeMap.mem_keys]

/-- A leaf of the written content is the proposed one, except that an old value that
Go finds equal to the proposed one stays. -/
theorem getElem?_written (original proposed : Values) (path : GoString) :
    (written original proposed)[path]? =
      match proposed[path]? with
      | none => none
      | some value =>
        if original[path]?.any (fun old => Leaf.goEq old value) then original[path]?
        else some value := by
  rw [written, FinMap.getElem?_eraseAll, Std.ExtTreeMap.getElem?_union, getElem?_changedLeaves]
  cases hProposed : proposed[path]? with
  | none =>
    have hAbsent : path ∉ proposed := by
      rw [FinMap.mem_iff_isSome, hProposed]
      simp
    by_cases hOriginal : path ∈ original
    · rw [if_pos (mem_droppedPaths.mpr ⟨hOriginal, hAbsent⟩)]
    · rw [if_neg fun hDropped => hOriginal (mem_droppedPaths.mp hDropped).1]
      rw [FinMap.mem_iff_isSome, Option.not_isSome_iff_eq_none] at hOriginal
      simp [hOriginal]
  | some value =>
    have hPresent : path ∈ proposed := by
      rw [FinMap.mem_iff_isSome, hProposed]
      rfl
    rw [if_neg fun hDropped => (mem_droppedPaths.mp hDropped).2 hPresent]
    by_cases hSame : original[path]?.any (fun old => Leaf.goEq old value) = true
    · simp [Option.filter, hSame]
    · simp [Option.filter, hSame]

/-- What is written is what was proposed, up to the signs of zeros. -/
theorem sameUpToZeroSign_written (original proposed : Values) :
    SameUpToZeroSign (written original proposed) proposed := by
  intro path
  rw [getElem?_written]
  cases hProposed : proposed[path]? with
  | none => rfl
  | some value =>
    dsimp only
    split
    · next hSame =>
      cases hOriginal : original[path]? with
      | none => simp [hOriginal] at hSame
      | some old =>
        rw [hOriginal] at hSame
        simp only [Option.any_some] at hSame
        simp only [Option.map_some, Leaf.positiveZero_eq_of_goEq hSame]
    · rfl

/-- A leaf that the proposal keeps is kept. -/
theorem getElem?_written_of_eq (hSame : proposed[path]? = original[path]?) :
    (written original proposed)[path]? = original[path]? := by
  rw [getElem?_written, hSame]
  cases original[path]? with
  | none => rfl
  | some old =>
    dsimp only
    split <;> rfl

/-- The batch of an edit passes the conversion and the checks of the store as it is,
or does not pass at all. -/
theorem checkValues_of_convertAll_eq_ok {changed leaves : Values}
    {batch : Std.ExtTreeMap GoString GoValue}
    (hStable : ∀ (path : GoString) value converted, changed[path]? = some value →
      r.convert path (.leaf value) = .ok converted → converted.value = value)
    (hConvert : r.convertAll (changed.map fun _ value => .leaf value) = .ok batch)
    (hCheck : Memory.checkValues batch = .ok leaves) : leaves = changed := by
  refine Std.ExtTreeMap.ext_getElem? ?_
  intro path
  obtain ⟨hConverted, hConvertedNone⟩ := FinMap.traverse_eq_ok_image hConvert path
  obtain ⟨hChecked, hCheckedNone⟩ := FinMap.traverse_eq_ok_image hCheck path
  simp only [Std.ExtTreeMap.getElem?_map, Option.map_eq_some_iff, Option.map_eq_none_iff]
    at hConverted hConvertedNone
  cases hValue : changed[path]? with
  | none => exact hCheckedNone (hConvertedNone hValue)
  | some value =>
    obtain ⟨image, hImage, hBatch⟩ := hConverted (.leaf value) ⟨value, hValue, rfl⟩
    cases hResult : r.convert path (.leaf value) with
    | error err =>
      rw [hResult] at hImage
      cases hImage
    | ok converted =>
      rw [hResult] at hImage
      cases hImage
      dsimp only at hBatch
      rw [hStable path value converted hValue hResult] at hBatch
      obtain ⟨leaf, hLeaf, hStored⟩ := hChecked (.leaf value) hBatch
      split at hLeaf
      · cases hLeaf
      · cases hLeaf
        exact hStored

/-! ## The edit as a whole -/

/-- A described leaf: what the datastore holds there and how the router locates it. -/
theorem described_of_describeAll_eq_ok (hDescribe : r.describeAll content = .ok results)
    {found : Result} (hFound : results[path]? = some found) :
    ∃ value kind readOnly, content[path]? = some value ∧
      r.locate path = .ok (path, kind, readOnly) ∧ found.value = value ∧
      found.writable = !readOnly := by
  obtain ⟨hSome, hNone⟩ := FinMap.traverse_eq_ok_image hDescribe path
  cases hContent : content[path]? with
  | none =>
    rw [hNone hContent] at hFound
    cases hFound
  | some value =>
    obtain ⟨image, hImage, hStored⟩ := hSome value hContent
    rw [hFound, Option.some.injEq] at hStored
    subst hStored
    obtain ⟨⟨canonical, kind, readOnly⟩, hLocate, hResult⟩ := bind_eq_ok_iff.mp hImage
    obtain ⟨hCanonical, _⟩ := locate_eq_ok hLocate
    subst hCanonical
    cases hResult
    exact ⟨value, kind, readOnly, rfl, hLocate, result_value .., result_writable ..⟩

/-- The start of an edit: the described leaves are the content, and the editor is
sound. -/
theorem editorOf_spec (hDescribe : r.describeAll content = .ok results) :
    (editorOf results).proposed = content ∧ (editorOf results).Sound r := by
  have hEntry := fun (path : GoString) found (hFound : results[path]? = some found) =>
    described_of_describeAll_eq_ok hDescribe hFound
  refine ⟨?_, ?_, ?_⟩
  · refine Std.ExtTreeMap.ext_getElem? ?_
    intro path
    show (results.map fun _ found => found.value)[path]? = content[path]?
    rw [Std.ExtTreeMap.getElem?_map]
    cases hFound : results[path]? with
    | some found =>
      obtain ⟨value, _, _, hContent, _, hValue, _⟩ := hEntry path found hFound
      rw [hContent, ← hValue]
      rfl
    | none =>
      cases hContent : content[path]? with
      | none => rfl
      | some value =>
        obtain ⟨image, _, hStored⟩ :=
          (FinMap.traverse_eq_ok_image hDescribe path).1 value hContent
        rw [hFound] at hStored
        cases hStored
  · intro path
    have hLookup : (editorOf results).isWritable path =
        (results[path]?.map Result.writable).getD false := by
      show (results.map fun _ found => found.writable).getD path false = _
      rw [Std.ExtTreeMap.getD_eq_getD_getElem?, Std.ExtTreeMap.getElem?_map]
    have hMem : path ∈ (editorOf results).proposed ↔ (results[path]?).isSome = true := by
      show path ∈ (results.map fun _ found => found.value) ↔ _
      rw [FinMap.mem_iff_isSome, Std.ExtTreeMap.getElem?_map, Option.isSome_map]
    rw [hLookup, hMem]
    cases hFound : results[path]? with
    | none => simp
    | some found =>
      obtain ⟨_, _, readOnly, _, hLocate, _, hAccess⟩ := hEntry path found hFound
      rw [isState_of_locate_eq_ok hLocate]
      simp [hAccess]
  · intro path hMem
    rw [FinMap.mem_iff_isSome] at hMem
    have hMapped : ((results.map fun _ found => found.value)[path]?).isSome = true := hMem
    rw [Std.ExtTreeMap.getElem?_map, Option.isSome_map] at hMapped
    obtain ⟨found, hFound⟩ := Option.isSome_iff_exists.mp hMapped
    obtain ⟨_, _, _, _, hLocate, _⟩ := hEntry path found hFound
    exact leafPath_of_locate_eq_ok hLocate

/-- An edit request accepted on a content: the proposal it leads to is valid. -/
structure Accepts (r : Router) (req : EditRequest) (content : Values) (edited : Editor) : Prop where
  proposed : ∃ results, r.describeAll content = .ok results ∧
    propose r req (editorOf results) = .ok edited
  valid : r.validate none edited.proposed = .ok ()

/-- The leaves below the base path that the documents of a request name. -/
def EditRequest.Names (req : EditRequest) (path : GoString) : Prop :=
  ∃ schema, childrenOf req.basePath = .ok schema ∧
    ∃ document ∈ req.documents, Editor.NamedBy req.basePath schema document path

/-- The proposal of an accepted request touches what its documents name. -/
theorem Accepts.touches (hAccepts : Accepts r req content edited) :
    ∃ start : Editor, start.proposed = content ∧ Editor.Touches r req.Names start edited := by
  obtain ⟨results, hDescribe, hPropose⟩ := hAccepts.proposed
  obtain ⟨hContent, hSound⟩ := editorOf_spec hDescribe
  refine ⟨editorOf results, hContent, ?_⟩
  unfold propose at hPropose
  cases hSchema : childrenOf req.basePath with
  | error err =>
    rw [hSchema] at hPropose
    cases hPropose
  | ok schema =>
    rw [hSchema] at hPropose
    refine (Editor.touches_walkAll req.documents req.basePath schema req.default _ edited
      hSchema hSound hPropose).mono ?_
    intro path hNamed
    exact ⟨schema, hSchema, hNamed⟩

section Ensures

variable {json : Json} {opts : Options} {machine : Machine json} {r : Router} {ds : Datastore}
  {req : EditRequest}

/-- What an edit leaves behind: an error leaves the contents alone, and a success has
written the difference to an accepted proposal. -/
def Edited (r : Router) (ds : Datastore) (req : EditRequest) (before : Machine json) :
    Except Err Unit → Machine json → Prop
  | .error _, after => after.contents = before.contents
  | .ok (), after => ∃ content edited, before.memory.datastore ds = .ok content ∧
      Accepts r req content edited ∧
      after.contents = before.contents.edit ds fun target =>
        FinMap.eraseAll (target ∪ changedLeaves content edited.proposed)
          (droppedPaths content edited.proposed)

variable {edited : Editor}

/-- A changed leaf converts to itself: it was converted before, or it is an old value
that Go does not find equal to itself. -/
theorem convert_changedLeaves {content : Values} (hAccepts : Accepts r req content edited)
    (path : GoString) (value : Leaf) (converted : Result)
    (hChanged : (changedLeaves content edited.proposed)[path]? = some value)
    (hConvert : r.convert path (.leaf value) = .ok converted) : converted.value = value := by
  obtain ⟨start, rfl, hTouches⟩ := hAccepts.touches
  rw [getElem?_changedLeaves, Option.filter_eq_some_iff] at hChanged
  obtain ⟨hProposed, hDiffers⟩ := hChanged
  rcases hTouches.values path value hProposed with hOld | ⟨settled, hSettled, hValue⟩
  · rw [hOld] at hDiffers
    exact value_of_convert_eq_ok_of_goEq_self (by simpa using hDiffers) hConvert
  · rw [hConvert, Except.ok.injEq] at hSettled
    rw [hSettled, hValue]

theorem ensures_applyDiff {content : Values} (hContent : machine.memory.datastore ds = .ok content)
    (hAccepts : Accepts r req content edited) :
    (applyDiff r ds content edited.proposed).Ensures opts (Edited r ds req machine) machine := by
  refine ensures_mapError (ensures_checkCtx (fun err => rfl)
    (ensures_andThen_ret ?_ fun err => rfl))
  intro batch hConvert
  refine ensures_mutate ?_ fun err after hSame => hSame
  rintro env after ⟨leaves, hCheck, _, _, hAfter⟩
  have hLeaves := checkValues_of_convertAll_eq_ok (convert_changedLeaves hAccepts) hConvert hCheck
  subst hLeaves
  exact ⟨content, edited, hContent, hAccepts, hAfter⟩

theorem ensures_applyBody :
    (applyBody r ds req).Ensures opts (Edited r ds req machine) machine := by
  refine ensures_andThen (ensures_mapError (ensures_values ?_ ?_))
  · intro content results hContent hDescribe
    obtain ⟨hOriginal, _⟩ := editorOf_spec hDescribe
    refine ⟨?_, fun err hErr => by cases hErr⟩
    rintro _ ⟨⟩
    refine ensures_andThen_ret ?_ fun err => rfl
    intro edited hPropose
    refine ensures_andThen (ensures_mapError (ensures_validateProg ?_ ?_))
    · intro hValid
      refine ⟨?_, fun err hErr => by cases hErr⟩
      rintro ⟨⟩ _
      rw [hOriginal]
      exact ensures_applyDiff hContent ⟨⟨results, hDescribe, hPropose⟩, hValid⟩
    · intro err
      exact ⟨fun value hValue => (by cases hValue), fun _ _ => rfl⟩
  · intro err
    exact ⟨fun value hValue => (by cases hValue), fun _ _ => rfl⟩

theorem ensures_apply : (apply r ds req).Ensures opts (Edited r ds req machine) machine := by
  refine ensures_checkCtx (fun err => rfl) (ensures_checkCtx (fun err => rfl) ?_)
  exact Program.Ensures.locked ensures_applyBody

end Ensures

theorem validate_eq_ok_of_sameUpToZeroSign {content' : Values}
    (hSame : SameUpToZeroSign content content') (hValid : r.validate none content' = .ok ()) :
    r.validate none content = .ok () := by
  have hIsOk : (r.validate none content).isOk = true := by
    show (validateValues r.root none content).isOk = true
    rw [isOk_validateValues_congr r.root hSame]
    show (r.validate none content').isOk = true
    rw [hValid]
    rfl
  cases hResult : r.validate none content with
  | error err =>
    rw [hResult] at hIsOk
    cases hIsOk
  | ok done => rfl

/-- The written content of an accepted request: it is valid, differs from the old one
only where the documents name a leaf, and has the same state leaves. -/
theorem Accepts.written (hAccepts : Accepts r req content edited) :
    r.validate none (written content edited.proposed) = .ok () ∧
      (∀ path : GoString, (written content edited.proposed)[path]? ≠ content[path]? →
        req.Names path) ∧
      ∀ path : GoString, r.isState path = true →
        (written content edited.proposed)[path]? = content[path]? := by
  obtain ⟨start, rfl, hTouches⟩ := hAccepts.touches
  refine ⟨?_, ?_, ?_⟩
  · exact validate_eq_ok_of_sameUpToZeroSign (sameUpToZeroSign_written _ _) hAccepts.valid
  · intro path hDiffers
    by_contra hOutside
    exact hDiffers (getElem?_written_of_eq (hTouches.outside path hOutside))
  · intro path hState
    exact getElem?_written_of_eq (hTouches.state path hState)

theorem datastore_of_contents_eq_edit {json : Json} {before after : Memory json} {ds : Datastore}
    {f : Values → Values} (hContent : before.datastore ds = .ok content)
    (hAfter : after.contents = before.contents.edit ds f) :
    after.datastore ds = .ok (f content) := by
  cases ds with
  | running =>
    cases hContent
    exact congrArg (fun contents => Except.ok contents.running) hAfter
  | candidate =>
    cases hContent
    exact congrArg (fun contents => Except.ok contents.candidate) hAfter
  | startup =>
    cases hContent
    exact congrArg (fun contents => Except.ok contents.startup) hAfter
  | unknown name => cases hContent

/-- What the writes of an accepted request do to another content, the mirror of the edited one:
they change a leaf where the documents name it, or where the old value is one that Go does not
find equal to itself, which is written once more. -/
theorem Accepts.mirrored (hAccepts : Accepts r req content edited) {other : Values}
    (hDiffers : (FinMap.eraseAll (other ∪ changedLeaves content edited.proposed)
      (droppedPaths content edited.proposed))[path]? ≠ other[path]?) :
    req.Names path ∨ ∃ value, content[path]? = some value ∧ Leaf.goEq value value = false := by
  obtain ⟨start, rfl, hTouches⟩ := hAccepts.touches
  by_cases hNames : req.Names path
  · exact Or.inl hNames
  · have hSame := hTouches.outside path hNames
    have hKept : path ∉ droppedPaths start.proposed edited.proposed := by
      rw [mem_droppedPaths, FinMap.mem_iff_isSome, FinMap.mem_iff_isSome, hSame]
      exact fun hBoth => hBoth.2 hBoth.1
    rw [FinMap.getElem?_eraseAll, if_neg hKept, Std.ExtTreeMap.getElem?_union,
      getElem?_changedLeaves, hSame] at hDiffers
    cases hOld : start.proposed[path]? with
    | none => simp [hOld] at hDiffers
    | some value =>
      refine Or.inr ⟨value, rfl, ?_⟩
      by_contra hEqual
      simp [hOld, Option.filter, hEqual] at hDiffers

/-- Only an edit of running reaches another datastore, its mirror. -/
theorem mirrored_of_contents_eq_edit {json : Json} {before after : Memory json}
    {ds other : Datastore} {f : Values → Values} {old new : Values} (hOther : other ≠ ds)
    (hOld : before.datastore other = .ok old) (hNew : after.datastore other = .ok new)
    (hAfter : after.contents = before.contents.edit ds f) :
    new = old ∨ ds = .running ∧ other = .candidate ∧ new = f old := by
  cases other with
  | running =>
    cases hOld
    cases hNew
    exact Or.inl ((congrArg Contents.running hAfter).trans
      (Contents.running_edit_of_ne hOther.symm))
  | candidate =>
    cases hOld
    cases hNew
    cases ds with
    | running => exact Or.inr ⟨rfl, rfl, congrArg Contents.candidate hAfter⟩
    | candidate => exact absurd rfl hOther
    | startup | unknown => exact Or.inl (congrArg Contents.candidate hAfter)
  | startup =>
    cases hOld
    cases hNew
    cases ds with
    | startup => exact absurd rfl hOther
    | running | candidate | unknown => exact Or.inl (congrArg Contents.startup hAfter)
  | unknown name => cases hOld

/-- An edit that runs alone is atomic, leads from any content to a valid one only, and
touches nothing but the configuration leaves its documents name. -/
theorem edit_alone_is_atomic_valid_and_framed {json : Json} (opts : Options) (r : Router)
    (ds : Datastore) (req : EditRequest) (env : Nat → CallEnv) (machine : Machine json) :
    let done := (apply r ds req).run opts env machine
    (∀ err, done.1 = .error err → done.2.contents = machine.contents) ∧
      (done.1 = .ok () → ∃ old new, machine.memory.datastore ds = .ok old ∧
        done.2.memory.datastore ds = .ok new ∧
        r.validate none new = .ok () ∧
        (∀ path : GoString, new[path]? ≠ old[path]? → req.Names path) ∧
        ∀ path : GoString, r.isState path = true → new[path]? = old[path]?) := by
  intro done
  have hEdited : Edited r ds req machine done.1 done.2 := ensures_apply.run env
  refine ⟨?_, ?_⟩
  · intro err hError
    rw [hError] at hEdited
    exact hEdited
  · intro hOk
    rw [hOk] at hEdited
    obtain ⟨content, edited, hContent, hAccepts, hAfter⟩ := hEdited
    have hNew := datastore_of_contents_eq_edit hContent hAfter
    exact ⟨content, written content edited.proposed, hContent, hNew, hAccepts.written⟩

/-- The smallest content that is valid over the default device: the interface its
SyncE reference names. -/
def bareContent : Values :=
  Std.ExtTreeMap.ofList
    [(text "synce/interfaces/interface[name=eth0]/name", Leaf.string "eth0")]

/-- The bare content with a name for the system. -/
def namedContent : Values :=
  bareContent.insert (text "system-info/name") (.string "edge")

/-- A process whose running and candidate datastores hold the same content. -/
def machineWith (content : Values) : Machine Json.plain :=
  Machine.start { newMemory none with running := content, candidate := content }

def describeRequest : EditRequest :=
  ⟨[], .merge, [.mk "system-info" [] [] [.mk "description" "lab" [] []]]⟩

theorem edit_alone_describes_bareContent :
    ∃ old new, (machineWith bareContent).memory.datastore .running = .ok old ∧
      ((apply defaultRouter .running describeRequest).run (defaultRouter.options [])
        (fun _ => CallEnv.quiet) (machineWith bareContent)).2.memory.datastore .running =
          .ok new ∧
      defaultRouter.validate none new = .ok () ∧
      (∀ path : GoString, new[path]? ≠ old[path]? → describeRequest.Names path) ∧
      ∀ path : GoString, defaultRouter.isState path = true → new[path]? = old[path]? :=
  (edit_alone_is_atomic_valid_and_framed (defaultRouter.options []) defaultRouter .running
    describeRequest (fun _ => CallEnv.quiet) (machineWith bareContent)).2 (by decide +kernel)

end Datatree

end TriadSim
