import TriadSim.Datatree.Answers
import TriadSim.Router.Reachable

/-!
# Reading what validation accepts

Validation rebuilds the device from the stored leaves, and the rebuild creates list entries
and subtrees as it meets them.  A read resolves every stored path against the boot template,
where a closed list has only the entries of the template.  So a content that validation
accepts can still be one that no read gets through; it is readable exactly if its paths stay
within the template and have predicates only at lists (`accepted_content_is_read_iff`).
-/

namespace TriadSim
namespace Datatree

open Go Library Router Store

/-! ## The shapes of the schema -/

/-- The schema leads down to a leaf along a shape, with the same keys. -/
def schemaShape : List SchemaNode → List ShapePart → Bool
  | _, [] => false
  | nodes, part :: rest =>
    (childNamed nodes part.1).any fun child =>
      match child.node.kind with
      | .leaf _ => part.2.isNone && rest.isEmpty
      | .container => part.2.isNone && schemaShape child.children rest
      | .list key => decide (part.2 = some key) && schemaShape child.children rest

/-- The leaves of the types are leaves of the schema. -/
theorem schemaShape_leafShapes :
    (leafShapes Model.Device.fields).all (schemaShape deviceSchema) = true := by
  decide +kernel

/-- Along the schema, only entries of lists have a predicate. -/
def bareOffLists : List SchemaNode → List Segment → Bool
  | _, [] => true
  | nodes, segment :: rest =>
    match childNamed nodes segment.name with
    | none => true
    | some child =>
      (match child.node.kind with
        | .list _ => true
        | _ => decide (segment.key = [])) && bareOffLists child.children rest

theorem leafBelow_of_schemaShape {nodes : List SchemaNode} {shape : List ShapePart}
    {segments : List Segment} (hShape : schemaShape nodes shape = true)
    (hFits : List.Forall₂ Fits shape segments) (hBare : bareOffLists nodes segments = true) :
    LeafBelow nodes segments := by
  induction hFits generalizing nodes with
  | nil => cases hShape
  | @cons part segment shape rest hPart hRest ih =>
    obtain ⟨hName, hKey⟩ := hPart
    rw [schemaShape, Option.any_eq_true] at hShape
    obtain ⟨child, hChild, hBelow⟩ := hShape
    rw [← hName] at hChild
    rw [bareOffLists, hChild] at hBare
    obtain ⟨hHere, hDeeper⟩ := Bool.and_eq_true_iff.mp hBare
    refine ⟨child, hChild, ?_⟩
    cases hKind : child.node.kind with
    | leaf kind =>
      simp only [hKind, decide_eq_true_eq] at hHere
      simp only [hKind, Bool.and_eq_true, List.isEmpty_iff] at hBelow
      rw [hBelow.2, List.forall₂_nil_left_iff] at hRest
      exact ⟨(checkPredicate_inner_iff (by simp)).mpr hHere, hRest⟩
    | container =>
      simp only [hKind, decide_eq_true_eq] at hHere
      simp only [hKind, Bool.and_eq_true] at hBelow
      exact ⟨(checkPredicate_inner_iff (by simp)).mpr hHere, ih hBelow.2 hDeeper⟩
    | list key =>
      simp only [hKind, Bool.and_eq_true, decide_eq_true_eq] at hBelow
      obtain ⟨hSame, hSome⟩ := hKey key hBelow.1
      exact ⟨checkPredicate_list_iff.mpr ⟨hSame ▸ hSome, hSame⟩, ih hBelow.2 hDeeper⟩

/-- A path on the schema has predicates only at lists. -/
theorem bareOffLists_of_leafBelow {nodes : List SchemaNode} {segments : List Segment}
    (hBelow : LeafBelow nodes segments) : bareOffLists nodes segments = true := by
  induction segments generalizing nodes with
  | nil => rfl
  | cons segment rest ih =>
    obtain ⟨child, hChild, hPredicate, hRest⟩ := hBelow
    rw [bareOffLists, hChild]
    cases hKind : child.node.kind with
    | leaf kind =>
      rw [hKind] at hPredicate hRest
      obtain rfl : rest = [] := hRest
      simpa [hKind, bareOffLists] using (checkPredicate_inner_iff (by simp)).mp hPredicate
    | container =>
      rw [hKind] at hPredicate hRest
      simpa [hKind, ih hRest] using (checkPredicate_inner_iff (by simp)).mp hPredicate
    | list key =>
      rw [hKind] at hRest
      simpa [hKind] using ih hRest

/-- A path that fits a shape of the schema names the key of a list where it goes through one. -/
theorem key_of_schemaShape {base rest : List Segment} {segment : Segment} {child : SchemaNode}
    {key : GoString} {nodes below : List SchemaNode} {shape : List ShapePart}
    (hShape : schemaShape nodes shape = true)
    (hFits : List.Forall₂ Fits shape (base ++ segment :: rest))
    (hBelow : descend [] nodes base = .ok below)
    (hChild : childNamed below segment.name = some child) (hKind : child.node.kind = .list key) :
    segment.key = key := by
  induction base generalizing nodes shape with
  | nil =>
    cases hBelow
    obtain ⟨part, others, ⟨hName, hKey⟩, _, rfl⟩ := List.forall₂_cons_right_iff.mp hFits
    rw [schemaShape, ← hName, hChild, Option.any_some, hKind] at hShape
    exact (hKey key (of_decide_eq_true (Bool.and_eq_true_iff.mp hShape).1)).1
  | cons first base ih =>
    obtain ⟨part, others, ⟨hName, _⟩, hRest, rfl⟩ := List.forall₂_cons_right_iff.mp hFits
    obtain ⟨inner, hInner, _, hNoLeaf, hDeeper⟩ := descend_cons_eq_ok_iff.mp hBelow
    rw [schemaShape, ← hName, hInner, Option.any_some] at hShape
    refine ih ?_ hRest hDeeper
    cases hInnerKind : inner.node.kind with
    | leaf kind => exact absurd hInnerKind (hNoLeaf kind)
    | container | list =>
      rw [hInnerKind] at hShape
      exact (Bool.and_eq_true_iff.mp hShape).2

/-! ## Accepted contents -/

/-- A stored path stays within the template: it goes through list entries and subtrees that
the template has, or through creatable lists, and has predicates only at lists. -/
def WithinTemplate (r : Router) (path : GoString) : Prop :=
  ∀ segments, parse path = .ok segments →
    present Model.Device.fields r.root.toVals segments = true ∧
      bareOffLists deviceSchema segments = true

/-- The check of a whole content. -/
def withinTemplate (r : Router) (content : Values) : Bool :=
  content.keys.all fun path => (parse path).toOption.all fun segments =>
    present Model.Device.fields r.root.toVals segments && bareOffLists deviceSchema segments

theorem withinTemplate_spec {r : Router} {content : Values}
    (hWithin : withinTemplate r content = true) : ∀ path ∈ content, WithinTemplate r path := by
  intro path hPath segments hParse
  have hHere := List.all_eq_true.mp hWithin path (Std.ExtTreeMap.mem_keys.mpr hPath)
  rw [hParse] at hHere
  exact Bool.and_eq_true_iff.mp hHere

section Accepted

variable {r : Router} {content : Values}

/-- Validation has rebuilt the device. -/
theorem exists_hydrate_of_validate_eq_ok (hValid : r.validate none content = .ok ()) :
    ∃ device, hydrate Model.Device.fields r.root.toVals content = .ok device := by
  unfold Router.validate validateValues deviceFromValues at hValid
  cases hHydrate : hydrate Model.Device.fields r.root.toVals content with
  | ok device => exact ⟨device, rfl⟩
  | error err =>
    rw [hHydrate] at hValid
    cases hValid

/-- An accepted path has the shape of a leaf, and is described as far as the template has what it
goes through. -/
theorem shape_of_validate_eq_ok (hValid : r.validate none content = .ok ()) {path : GoString}
    {leaf : Leaf} (hLeaf : content[path]? = some leaf) :
    ∃ segments, parse path = .ok segments ∧
      (∃ shape, schemaShape deviceSchema shape = true ∧ List.Forall₂ Fits shape segments) ∧
      (present Model.Device.fields r.root.toVals segments = true ↔
        ∃ found, r.describe path leaf = .ok found) := by
  obtain ⟨device, hHydrate⟩ := exists_hydrate_of_validate_eq_ok hValid
  obtain ⟨segments, before, after, hParse, hAssign⟩ :=
    exists_assignPath_of_hydrate_eq_ok hHydrate hLeaf
  obtain ⟨⟨shape, hShape, hFits⟩, _⟩ := @fits_of_assignType_eq_ok leaf
    (.struct Model.Device.fields) before after default segments hAssign
  refine ⟨segments, hParse,
    ⟨shape, List.all_eq_true.mp schemaShape_leafShapes shape hShape, hFits⟩, ?_⟩
  have hResolve : present Model.Device.fields r.root.toVals segments = true ↔
      ∃ kind readOnly, resolve Model.Device.fields r.root.toVals segments =
        .ok ⟨.leaf kind, readOnly⟩ :=
    @resolveType_iff_of_assignType_eq_ok leaf (.struct Model.Device.fields) r.root.toVals before
      after false false default segments hAssign
  rw [hResolve, Router.describe, Router.locate, hParse]
  constructor
  · rintro ⟨kind, readOnly, hLeafAt⟩
    exact ⟨r.result (pathText segments) leaf !readOnly, by simp [hLeafAt, bind, Except.bind]⟩
  · rintro ⟨found, hFound⟩
    obtain ⟨⟨canonical, kind, readOnly⟩, hLocate, _⟩ := bind_eq_ok_iff.mp hFound
    dsimp only at hLocate
    split at hLocate
    · cases hLocate
    · next hLeafAt => exact ⟨_, _, hLeafAt⟩
    · cases hLocate

/-- The accepted paths that stay within the template are those that are described and follow the
schema. -/
theorem withinTemplate_iff (hValid : r.validate none content = .ok ()) {path : GoString}
    {leaf : Leaf} (hLeaf : content[path]? = some leaf) :
    WithinTemplate r path ↔ (∃ found, r.describe path leaf = .ok found) ∧ OnSchema path := by
  obtain ⟨segments, hParse, ⟨shape, hShape, hFits⟩, hPresent⟩ :=
    shape_of_validate_eq_ok hValid hLeaf
  constructor
  · intro hWithin
    obtain ⟨hHere, hBare⟩ := hWithin segments hParse
    exact ⟨hPresent.mp hHere, segments, hParse, leafBelow_of_schemaShape hShape hFits hBare⟩
  · rintro ⟨hDescribed, _, hSchema, hBelow⟩ _ hSegments
    cases hSchema.symm.trans hParse
    cases hSegments.symm.trans hParse
    exact ⟨hPresent.mpr hDescribed, bareOffLists_of_leafBelow hBelow⟩

/-- Accepted paths name the keys of the lists that they go through. -/
theorem keysFit_of_validate_eq_ok (hValid : r.validate none content = .ok ())
    {results : Std.ExtTreeMap GoString Result} (hResults : r.describeAll content = .ok results) :
    KeysFit results := by
  have hShapes : ∀ path ∈ results, ∃ segments, parse path = .ok segments ∧
      ∃ shape, schemaShape deviceSchema shape = true ∧ List.Forall₂ Fits shape segments := by
    intro path hPath
    have hStored := mem_of_describeAll hResults hPath
    rw [FinMap.mem_iff_isSome, Option.isSome_iff_exists] at hStored
    obtain ⟨leaf, hLeaf⟩ := hStored
    obtain ⟨segments, hParse, hShape, _⟩ := shape_of_validate_eq_ok hValid hLeaf
    exact ⟨segments, hParse, hShape⟩
  refine ⟨fun path hPath => (hShapes path hPath).imp fun _ hShape => hShape.1, ?_⟩
  intro path hPath base segment rest nodes child key hParse hBelow hChild hKind
  obtain ⟨segments, hSegments, shape, hShape, hFits⟩ := hShapes path hPath
  cases hSegments.symm.trans hParse
  exact key_of_schemaShape hShape hFits hBelow hChild hKind

/-- A request for all content is shown what is stored. -/
theorem shown_all {results : Std.ExtTreeMap GoString Result}
    (hResults : r.describeAll content = .ok results) (path : GoString) :
    shown results .all path = content[path]? := by
  obtain ⟨hContent, _⟩ := editorOf_spec hResults
  rw [← hContent]
  show _ = (results.map fun _ found => found.value)[path]?
  rw [Std.ExtTreeMap.getElem?_map]
  unfold shown
  cases results[path]? with
  | none => rfl
  | some found => simp [selected, Content.includeConfig, Content.includeState]

/-- A content that validation accepts can be read exactly if it stays within the template: `Values`
then succeeds on a datastore that holds it, and a `Read` of the root for all content answers every
stored leaf, each of them once. -/
theorem accepted_content_is_read_iff {json : Json} (opts : Options) (r : Router) (ds : Datastore)
    (machine : Machine json) (content : Values)
    (hContent : machine.memory.datastore ds = .ok content)
    (hValid : r.validate none content = .ok ()) (env : Nat → CallEnv)
    (hLive : ∀ index, (env index).ctx = none) :
    ((∃ results, ((r.values ds).run opts env machine).1 = .ok results) ∧
        ∃ node, ((read r ds [] .all).run opts env machine).1 = .ok (some node) ∧
          Lists (fun path => content[path]?) (fun _ => True) node.leaves) ↔
      ∀ path ∈ content, WithinTemplate r path := by
  have hWithin : (∀ path ∈ content, WithinTemplate r path) ↔ ∀ path leaf,
      content[path]? = some leaf → (∃ found, r.describe path leaf = .ok found) ∧ OnSchema path := by
    refine forall_congr' fun path => ?_
    rw [FinMap.mem_iff_isSome, Option.isSome_iff_exists]
    exact ⟨fun hAll leaf hLeaf => (withinTemplate_iff hValid hLeaf).mp (hAll ⟨leaf, hLeaf⟩),
      fun hAll ⟨leaf, hLeaf⟩ => (withinTemplate_iff hValid hLeaf).mpr (hAll leaf hLeaf)⟩
  have hValues : (r.values ds).LiveEnsures opts (fun result after =>
      after = machine ∧ result = r.describeAll content) machine := ensures_live_values hContent
  rw [hWithin, (hValues.run env hLive).2]
  -- the root of a content that is described lists its leaves on the schema
  have hRoot : ∀ results, r.describeAll content = .ok results → ∃ node,
      ((read r ds [] .all).run opts env machine).1 = .ok (some node) ∧
        Lists (fun path => content[path]?) OnSchema node.leaves := by
    intro results hResults
    have hRead : (read r ds [] .all).LiveEnsures opts (fun found after =>
        after = machine ∧ found = readNode results [] .all) machine :=
      ensures_live_read hContent hResults
    obtain ⟨node, hNode, hLists⟩ :=
      readNode_root_onSchema .all (keysFit_of_validate_eq_ok hValid hResults)
    rw [funext (shown_all hResults)] at hLists
    exact ⟨node, by rw [(hRead.run env hLive).2, hNode], hLists⟩
  constructor
  · rintro ⟨⟨results, hResults⟩, node, hRead, hAll⟩ path leaf hLeaf
    obtain ⟨other, hOther, hLists⟩ := hRoot results hResults
    cases hOther.symm.trans hRead
    have hListed := (hAll.mem_iff path leaf).mpr ⟨trivial, hLeaf⟩
    obtain ⟨found, hFound, _⟩ := (FinMap.traverse_eq_ok_image hResults path).1 leaf hLeaf
    exact ⟨⟨found, hFound⟩, ((hLists.mem_iff path leaf).mp hListed).1⟩
  · intro hEach
    obtain ⟨results, hResults⟩ : ∃ results, r.describeAll content = .ok results :=
      FinMap.exists_traverse_eq_ok r.describe content
        fun path leaf hLeaf => (hEach path leaf hLeaf).1
    obtain ⟨node, hRead, hLists⟩ := hRoot results hResults
    refine ⟨⟨results, hResults⟩, node, hRead, hLists.congr fun path hSome => ?_⟩
    obtain ⟨leaf, hLeaf⟩ := Option.isSome_iff_exists.mp hSome
    exact ⟨fun _ => trivial, fun _ => (hEach path leaf hLeaf).2⟩

end Accepted

theorem named_content_is_read :
    (∃ results, ((defaultRouter.values .running).run (defaultRouter.options [])
        (fun _ => CallEnv.quiet) (machineWith namedContent)).1 = .ok results) ∧
      ∃ node, ((read defaultRouter .running [] .all).run (defaultRouter.options [])
          (fun _ => CallEnv.quiet) (machineWith namedContent)).1 = .ok (some node) ∧
        Lists (fun path => namedContent[path]?) (fun _ => True) node.leaves :=
  (accepted_content_is_read_iff (defaultRouter.options []) defaultRouter .running
    (machineWith namedContent) namedContent rfl (by decide +kernel) (fun _ => CallEnv.quiet)
    fun _ => rfl).mpr (withinTemplate_spec (by decide +kernel))

/-- A content with an interface that the template does not have. -/
def strayInterface : Values :=
  ((bareContent.insert "interfaces/interface[name=eth9]/name" (.string "eth9")).insert
    "interfaces/interface[name=eth9]/type" (.string "ethernet")).insert
    "interfaces/interface[name=eth9]/mtu" (.uint32 1500)

theorem stray_interface_is_accepted_and_not_read :
    (defaultRouter.validate none strayInterface).isOk = true ∧
      ((defaultRouter.values .running).run (defaultRouter.options []) (fun _ => CallEnv.quiet)
        (machineWith strayInterface)).1.isOk = false := by
  decide +kernel

end Datatree
end TriadSim
