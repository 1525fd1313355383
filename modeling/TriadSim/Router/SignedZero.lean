import TriadSim.Router.Hydrate

/-!
# Validation does not see the sign of zero

An edit is written back by difference, and Go's comparison finds the two zeros equal: a leaf that
an edit changes from `0` to `-0` is validated with one sign and stored with the other.  Nothing in
the rebuild of a device or in its validation depends on that sign, so the difference does not
matter.  The main result is `isOk_validateValues_congr`.
-/

namespace TriadSim
namespace Router

open Go Library Store Model

mutual

/-- Forget the signs of all zeros in a value. -/
def forgetType : (type : GoType) → type.Val → type.Val
  | .scalar kind, value => forgetZeroSign kind value
  | .struct fields, value => forgetFields fields value
  | .pointer fields, value => value.map (forgetFields fields)
  | .slice fields, elements => elements.map (forgetFields fields)

def forgetFields : (fields : Fields) → fields.Vals → fields.Vals
  | .nil, values => values
  | .cons _ type rest, (value, values) => (forgetType type value, forgetFields rest values)

end

mutual

/-- No field tagged as key is a float. -/
def exactKeysType : GoType → Bool
  | .scalar _ => true
  | .struct fields => exactKeys fields
  | .pointer fields => exactKeys fields
  | .slice fields => exactKeys fields

def exactKeys : Fields → Bool
  | .nil => true
  | .cons tag type rest =>
    (!tag.key || !type.isFloat) && exactKeysType type && exactKeys rest

end

theorem exactKeys_device : exactKeys Device.fields = true := by
  decide

/-! ## Keys -/

theorem scalarText_forgetType {type : GoType} (hType : type.isFloat = false)
    (value : type.Val) : type.scalarText (forgetType type value) = type.scalarText value := by
  cases type with
  | scalar kind =>
    cases kind with
    | float64 => cases hType
    | _ => rfl
  | struct fields => rfl
  | pointer fields => cases value <;> rfl
  | slice fields => rfl

/-- The key of an element does not depend on the signs of zeros. -/
theorem keyText_forgetFields : ∀ (fields : Fields), exactKeys fields = true →
    ∀ values : fields.Vals, fields.keyText (forgetFields fields values) = fields.keyText values
  | .nil, _, _ => rfl
  | .cons tag type rest, hKeys, (value, values) => by
      simp only [exactKeys, Bool.and_eq_true, Bool.or_eq_true, Bool.not_eq_eq_eq_not,
        Bool.not_true] at hKeys
      obtain ⟨⟨hTag, _⟩, hRest⟩ := hKeys
      simp only [forgetFields, Fields.keyText]
      by_cases hKey : tag.key = true
      · rw [if_pos hKey, if_pos hKey]
        exact scalarText_forgetType (hTag.resolve_left (by simp [hKey])) value
      · rw [if_neg hKey, if_neg hKey]
        exact keyText_forgetFields rest hRest values

variable {fields : Fields} {α γ : Type} {values values' : Values}

theorem keyText_eq_of_forgetFields_eq (hKeys : exactKeys fields = true) {left right : fields.Vals}
    (hView : forgetFields fields left = forgetFields fields right) :
    fields.keyText left = fields.keyText right := by
  rw [← keyText_forgetFields fields hKeys left, hView, keyText_forgetFields fields hKeys right]

/-! ## Assignment -/

/-- Changing the first selected element respects a view that the selection does not
look behind. -/
theorem updateFirst_agreeVia {ε : Type} {view : α → γ} {selects : α → Bool} {f g : α → Except ε α}
    (hSelects : ∀ left right, view left = view right → selects left = selects right)
    (hChange : ∀ left right, view left = view right → AgreeVia view (f left) (g right)) :
    ∀ {first second : List α}, first.map view = second.map view →
      (updateFirst selects f first = none ∧ updateFirst selects g second = none) ∨
        ∃ left right, updateFirst selects f first = some left ∧
          updateFirst selects g second = some right ∧
          AgreeVia (List.map view) left right := by
  intro first
  induction first with
  | nil =>
    intro second hView
    cases second with
    | nil => exact Or.inl ⟨rfl, rfl⟩
    | cons _ _ => cases hView
  | cons head tail ih =>
    intro second hView
    cases second with
    | nil => cases hView
    | cons head' tail' =>
      obtain ⟨hHead, hTail⟩ := List.cons.inj hView
      simp only [updateFirst, ← hSelects head head' hHead]
      by_cases hSelected : selects head = true
      · rw [if_pos hSelected, if_pos hSelected]
        refine Or.inr ⟨_, _, rfl, rfl, (hChange head head' hHead).map ?_⟩
        intro left right hUpdated
        simp only [List.map_cons, hUpdated]
        exact congrArg _ hTail
      · rw [if_neg hSelected, if_neg hSelected]
        rcases ih hTail with ⟨hNone, hNone'⟩ | ⟨left, right, hLeft, hRight, hAgree⟩
        · exact Or.inl ⟨by rw [hNone]; rfl, by rw [hNone']; rfl⟩
        · refine Or.inr ⟨_, _, by rw [hLeft]; rfl, by rw [hRight]; rfl, hAgree.map ?_⟩
          intro others others' hOthers
          simp only [List.map_cons, hHead, hOthers]

theorem updateElement_agreeVia (hKeys : exactKeys fields = true) {first second : List fields.Vals}
    (segment : Segment) {f g : fields.Vals → Except Err fields.Vals}
    (hView : first.map (forgetFields fields) = second.map (forgetFields fields))
    (hChange : ∀ left right, forgetFields fields left = forgetFields fields right →
      AgreeVia (forgetFields fields) (f left) (g right)) :
    AgreeVia (List.map (forgetFields fields)) (updateElement fields first segment f)
      (updateElement fields second segment g) := by
  unfold updateElement
  cases fields.keyName with
  | none => exact .error _ _ _
  | some name =>
    by_cases hName : name ≠ segment.key
    · simp only [if_pos hName]
      exact .error _ _ _
    · simp only [if_neg hName]
      have hSelects : ∀ left right : fields.Vals,
          forgetFields fields left = forgetFields fields right →
          decide (fields.keyText left = some segment.value) =
            decide (fields.keyText right = some segment.value) := by
        intro left right hSame
        rw [keyText_eq_of_forgetFields_eq hKeys hSame]
      rcases updateFirst_agreeVia hSelects hChange hView with
        ⟨hNone, hNone'⟩ | ⟨left, right, hLeft, hRight, hAgree⟩
      · rw [hNone, hNone']
        cases fields.setKey fields.zero segment.value with
        | none => exact .error _ _ _
        | some fresh =>
          refine (hChange fresh fresh rfl).map ?_
          intro left right hElement
          simp only [List.map_append, hView, List.map_cons, List.map_nil, hElement]
      · rw [hLeft, hRight]
        exact hAgree

theorem assignStruct_agreeVia (view : α → γ) (fields : Fields) (segments : List Segment)
    (leaf leaf' : Leaf) {f g : Nat → Segment → List Segment → Except Err α}
    (hDescend : ∀ index last rest, AgreeVia view (f index last rest) (g index last rest)) :
    AgreeVia view (assignStruct fields segments leaf f)
      (assignStruct fields segments leaf' g) := by
  unfold assignStruct
  cases segments with
  | nil => exact .error _ _ _
  | cons first rest =>
    dsimp only
    cases matchField fields (first :: rest) with
    | none => exact .error _ _ _
    | some found => exact hDescend _ _ _

theorem coerce_agreeVia (kind : LeafKind) {leaf leaf' : Leaf}
    (hLeaf : leaf.positiveZero = leaf'.positiveZero) :
    AgreeVia (forgetZeroSign kind) (coerce kind (.leaf leaf)) (coerce kind (.leaf leaf')) := by
  unfold AgreeVia
  rw [← coerce_positiveZero kind leaf, hLeaf, coerce_positiveZero kind leaf']

mutual

theorem assignType_agreeVia : ∀ (type : GoType), exactKeysType type = true →
    ∀ (value value' : type.Val) (last : Segment) (segments : List Segment) (leaf leaf' : Leaf),
      forgetType type value = forgetType type value' →
      leaf.positiveZero = leaf'.positiveZero →
      AgreeVia (forgetType type) (assignType type value last segments leaf)
        (assignType type value' last segments leaf')
  | .scalar kind, _, _, _, _, segments, _, _, _, hLeaf => by
      cases segments with
      | nil => exact coerce_agreeVia kind hLeaf
      | cons next rest => exact .error _ _ _
  | .struct fields, hKeys, value, value', _, segments, leaf, leaf', hView, hLeaf => by
      simp only [assignType]
      refine assignStruct_agreeVia (forgetFields fields) fields segments leaf leaf' ?_
      intro index last rest
      exact assignField_agreeVia fields hKeys value value' index last rest leaf leaf' hView hLeaf
  | .pointer fields, hKeys, value, value', _, segments, leaf, leaf', hView, hLeaf => by
      -- A nil pointer is followed as a pointer to the zero value.
      have hTarget : forgetFields fields (value.getD fields.zero) =
          forgetFields fields (value'.getD fields.zero) := by
        cases value <;> cases value' <;> first | rfl | cases hView | exact Option.some.inj hView
      simp only [assignType]
      refine (assignStruct_agreeVia (forgetFields fields) fields segments leaf leaf' ?_).map ?_
      · intro index last rest
        exact assignField_agreeVia fields hKeys _ _ index last rest leaf leaf' hTarget hLeaf
      · intro left right hSame
        exact congrArg some hSame
  | .slice fields, hKeys, elements, elements', last, segments, leaf, leaf', hView, hLeaf => by
      simp only [assignType]
      by_cases hKey : last.key = []
      · rw [if_pos hKey, if_pos hKey]
        exact .error _ _ _
      · rw [if_neg hKey, if_neg hKey]
        refine updateElement_agreeVia hKeys last hView ?_
        intro element element' hElement
        refine assignStruct_agreeVia (forgetFields fields) fields segments leaf leaf' ?_
        intro index last rest
        exact assignField_agreeVia fields hKeys element element' index last rest leaf leaf'
          hElement hLeaf

theorem assignField_agreeVia : ∀ (fields : Fields), exactKeys fields = true →
    ∀ (values values' : fields.Vals) (index : Nat) (last : Segment) (segments : List Segment)
      (leaf leaf' : Leaf),
      forgetFields fields values = forgetFields fields values' →
      leaf.positiveZero = leaf'.positiveZero →
      AgreeVia (forgetFields fields) (assignField fields values index last segments leaf)
        (assignField fields values' index last segments leaf')
  | .nil, _, _, _, _, _, _, _, _, _, _ => .error _ _ _
  | .cons tag type rest, hKeys, (value, values), (value', values'), index, last, segments,
      leaf, leaf', hView, hLeaf => by
      simp only [exactKeys, Bool.and_eq_true] at hKeys
      obtain ⟨hValue, hValues⟩ := Prod.mk.inj hView
      cases index with
      | zero =>
        refine (assignType_agreeVia type hKeys.1.2 value value' last segments leaf leaf'
          hValue hLeaf).map ?_
        intro left right hSame
        exact Prod.ext hSame hValues
      | succ index =>
        refine (assignField_agreeVia rest hKeys.2 values values' index last segments leaf
          leaf' hValues hLeaf).map ?_
        intro left right hSame
        exact Prod.ext hValue hSame

end

/-! ## The rebuild -/

/-- Two contents that hold the same paths with the same values, up to the signs of
zeros. -/
def SameUpToZeroSign (values values' : Values) : Prop :=
  ∀ path : GoString, (values[path]?).map Leaf.positiveZero = (values'[path]?).map Leaf.positiveZero

namespace SameUpToZeroSign

theorem map_eq {values values' : Values} (hSame : SameUpToZeroSign values values') :
    values.map (fun _ => Leaf.positiveZero) = values'.map (fun _ => Leaf.positiveZero) := by
  refine Std.ExtTreeMap.ext_getElem? ?_
  intro path
  rw [Std.ExtTreeMap.getElem?_map, Std.ExtTreeMap.getElem?_map]
  exact hSame path

theorem forall₂_toList {values values' : Values} (hSame : SameUpToZeroSign values values') :
    List.Forall₂ (fun entry entry' : GoString × Leaf =>
      entry.1 = entry'.1 ∧ entry.2.positiveZero = entry'.2.positiveZero)
      values.toList values'.toList := by
  have hList := congrArg Std.ExtTreeMap.toList hSame.map_eq
  rw [Std.ExtTreeMap.toList_map, Std.ExtTreeMap.toList_map] at hList
  have hZip := List.forall₂_eq_eq_eq ▸ hList
  rw [List.forall₂_map_left_iff, List.forall₂_map_right_iff] at hZip
  refine hZip.imp ?_
  intro entry entry' hEntry
  exact Prod.mk.inj hEntry

end SameUpToZeroSign

def Entry.positiveZero (entry : Entry) : Entry :=
  { entry with leaf := entry.leaf.positiveZero }

theorem atPath_agreeVia {view : α → γ} {first second : Except Err α} (path : GoString)
    (hAgree : AgreeVia view first second) :
    AgreeVia view (atPath path first) (atPath path second) := by
  rcases hAgree.cases with ⟨left, right, rfl, rfl, hView⟩ | ⟨left, right, rfl, rfl⟩
  · exact .ok hView
  · exact .error _ _ _

theorem parseEntries_agreeVia (hSame : SameUpToZeroSign values values') :
    AgreeVia (List.map Entry.positiveZero) (parseEntries values) (parseEntries values') := by
  refine AgreeVia.mapM hSame.forall₂_toList ?_
  rintro ⟨path, leaf⟩ ⟨path', leaf'⟩ ⟨hPath, hLeaf⟩
  dsimp only at hPath hLeaf ⊢
  subst hPath
  cases atPath path (parse path) with
  | error err => exact .error _ _ _
  | ok segments =>
    refine .ok ?_
    simp only [Entry.positiveZero, hLeaf]

theorem prunedTemplate_congr (fields : Fields) (template : fields.Vals)
    {entries entries' : List Entry}
    (hEntries : entries.map Entry.positiveZero = entries'.map Entry.positiveZero) :
    prunedTemplate fields template entries = prunedTemplate fields template entries' := by
  have hSegments : entries.map Entry.segments = entries'.map Entry.segments := by
    have hMapped := congrArg (List.map Entry.segments) hEntries
    rwa [List.map_map, List.map_map] at hMapped
  have hInstances : entries.flatMap (fun entry => listInstances [] entry.segments) =
      entries'.flatMap (fun entry => listInstances [] entry.segments) := by
    rw [← List.flatMap_map, hSegments, List.flatMap_map]
  have hEmpty : entries.isEmpty = entries'.isEmpty := by
    cases entries <;> cases entries' <;> first | rfl | cases hSegments
  unfold prunedTemplate
  rw [hEmpty, hInstances]

/-- Contents that differ in the signs of zeros rebuild to devices that do. -/
theorem hydrate_agreeVia (hKeys : exactKeys fields = true) (template : fields.Vals)
    (hSame : SameUpToZeroSign values values') :
    AgreeVia (forgetFields fields) (hydrate fields template values)
      (hydrate fields template values') := by
  unfold hydrate
  rcases (parseEntries_agreeVia hSame).cases with
    ⟨entries, entries', hLeft, hRight, hEntries⟩ | ⟨left, right, hLeft, hRight⟩
  · rw [hLeft, hRight]
    have hRelated : List.Forall₂ (fun entry entry' : Entry =>
        entry.positiveZero = entry'.positiveZero) entries entries' := by
      rw [← List.forall₂_eq_eq_eq, List.forall₂_map_left_iff, List.forall₂_map_right_iff]
        at hEntries
      exact hEntries
    refine AgreeVia.foldlM hRelated ?_ (congrArg _ (prunedTemplate_congr fields template hEntries))
    intro device device' entry entry' hDevice hEntry
    obtain ⟨hPath, hSegments, hLeaf⟩ := Entry.mk.inj hEntry
    rw [hPath, hSegments]
    refine atPath_agreeVia _ (assignStruct_agreeVia (forgetFields fields) fields _ _ _ ?_)
    intro index last rest
    exact assignField_agreeVia fields hKeys device device' index last rest _ _ hDevice hLeaf
  · rw [hLeft, hRight]
    exact .error _ _ _

/-! ## Validation -/

mutual

def noFloatsType : GoType → Bool
  | .scalar kind => !(GoType.scalar kind).isFloat
  | .struct fields => noFloats fields
  | .pointer fields => noFloats fields
  | .slice fields => noFloats fields

def noFloats : Fields → Bool
  | .nil => true
  | .cons _ type rest => noFloatsType type && noFloats rest

end

mutual

theorem forgetType_of_noFloats : ∀ (type : GoType), noFloatsType type = true →
    ∀ value : type.Val, forgetType type value = value
  | .scalar kind, hType, value => by
      cases kind with
      | float64 => cases hType
      | _ => rfl
  | .struct fields, hType, value => forgetFields_of_noFloats fields hType value
  | .pointer fields, hType, value => by
      cases value with
      | none => rfl
      | some target => exact congrArg some (forgetFields_of_noFloats fields hType target)
  | .slice fields, hType, elements => by
      have hElement : forgetFields fields = id :=
        funext fun element => forgetFields_of_noFloats fields hType element
      simp only [forgetType, hElement, List.map_id]

theorem forgetFields_of_noFloats : ∀ (fields : Fields), noFloats fields = true →
    ∀ values : fields.Vals, forgetFields fields values = values
  | .nil, _, _ => rfl
  | .cons _ type rest, hFields, (value, values) => by
      simp only [noFloats, Bool.and_eq_true] at hFields
      simp only [forgetFields, forgetType_of_noFloats type hFields.1 value,
        forgetFields_of_noFloats rest hFields.2 values]

end

@[simp] theorem inRange_positiveZero (x low high : Float64) :
    inRange x.positiveZero low high = inRange x low high := by
  simp [inRange]

@[simp] theorem positive_positiveZero (x : Float64) : positive x.positiveZero = positive x := by
  simp [positive]

def forgetLinkBudget (l : LinkBudget) : LinkBudget :=
  { linkLength := l.linkLength.positiveZero, frequency := l.frequency.positiveZero,
    txAntennaGain := l.txAntennaGain.positiveZero, rxAntennaGain := l.rxAntennaGain.positiveZero,
    feedLoss := l.feedLoss.positiveZero, calculatedRSL := l.calculatedRSL.positiveZero }

def forgetATPC (a : ATPC) : ATPC :=
  { a with
    targetRSL := a.targetRSL.positiveZero, minPower := a.minPower.positiveZero,
    maxPower := a.maxPower.positiveZero, range := a.range.positiveZero,
    currentPower := a.currentPower.positiveZero }

def forgetModProfile (p : ModProfile) : ModProfile :=
  { p with
    spectralEfficiency := p.spectralEfficiency.positiveZero,
    rslThreshold := p.rslThreshold.positiveZero }

def forgetRadioLink (r : RadioLink) : RadioLink :=
  { r with
    txPower := r.txPower.positiveZero, rssi := r.rssi.positiveZero,
    fadeMargin := r.fadeMargin.positiveZero, linkBudget := forgetLinkBudget r.linkBudget,
    atpc := forgetATPC r.atpc, profiles := r.profiles.map forgetModProfile }

def forgetInterface (i : Interface) : Interface :=
  { i with radioLink := i.radioLink.map forgetRadioLink }

def forgetPTPClock (c : PTPClock) : PTPClock :=
  { c with offset := c.offset.positiveZero, jitter := c.jitter.positiveZero }

/-- Forget the signs of all zeros in a device. -/
def forgetDevice (d : Device) : Device :=
  { d with interfaces := d.interfaces.map forgetInterface, ptp := forgetPTPClock d.ptp }

theorem ofVals_forget_radioLink (values : RadioLink.fields.Vals) :
    RadioLink.ofVals (forgetFields RadioLink.fields values) =
      forgetRadioLink (RadioLink.ofVals values) := by
  have hProfiles : ∀ profiles : List ModProfile.fields.Vals,
      (profiles.map (forgetFields ModProfile.fields)).map ModProfile.ofVals =
        (profiles.map ModProfile.ofVals).map forgetModProfile := by
    intro profiles
    rw [List.map_map, List.map_map]
    rfl
  exact congrArg (fun profiles =>
    { forgetRadioLink (RadioLink.ofVals values) with profiles := profiles }) (hProfiles _)

theorem ofVals_forget_interface (values : Interface.fields.Vals) :
    Interface.ofVals (forgetFields Interface.fields values) =
      forgetInterface (Interface.ofVals values) := by
  have hLink : ∀ link : Option RadioLink.fields.Vals,
      (link.map (forgetFields RadioLink.fields)).map RadioLink.ofVals =
        (link.map RadioLink.ofVals).map forgetRadioLink := by
    intro link
    cases link with
    | none => rfl
    | some target => exact congrArg some (ofVals_forget_radioLink target)
  exact congrArg (fun link =>
    { forgetInterface (Interface.ofVals values) with radioLink := link }) (hLink _)

theorem ofVals_forget_device (values : Device.fields.Vals) :
    Device.ofVals (forgetFields Device.fields values) = forgetDevice (Device.ofVals values) := by
  obtain ⟨systemInfo, interfaces, vlans, macTable, stp, lldp, ptp, syncE, rest⟩ := values
  have hInterfaces : (interfaces.map (forgetFields Interface.fields)).map Interface.ofVals =
      (interfaces.map Interface.ofVals).map forgetInterface := by
    rw [List.map_map, List.map_map]
    exact List.map_congr_left fun iface _ => ofVals_forget_interface iface
  -- Everything but the interfaces and the clock is free of floats.
  have hVLANs : forgetType (.slice VLAN.fields) vlans = vlans := forgetType_of_noFloats _ rfl _
  have hMACTable : forgetFields MACTable.fields macTable = macTable :=
    forgetFields_of_noFloats _ rfl _
  have hSTP : forgetFields STPState.fields stp = stp := forgetFields_of_noFloats _ rfl _
  have hLLDP : forgetFields LLDPConfig.fields lldp = lldp := forgetFields_of_noFloats _ rfl _
  have hSyncE : forgetFields SyncEState.fields syncE = syncE := forgetFields_of_noFloats _ rfl _
  show Device.ofVals (systemInfo, interfaces.map (forgetFields Interface.fields),
    forgetType (.slice VLAN.fields) vlans, forgetFields MACTable.fields macTable,
    forgetFields STPState.fields stp, forgetFields LLDPConfig.fields lldp,
    forgetFields PTPClock.fields ptp, forgetFields SyncEState.fields syncE, rest) = _
  rw [hVLANs, hMACTable, hSTP, hLLDP, hSyncE]
  exact congrArg (fun ifaces => { Device.ofVals (systemInfo, interfaces, vlans, macTable, stp,
    lldp, forgetFields PTPClock.fields ptp, syncE, rest) with interfaces := ifaces }) hInterfaces

@[simp] theorem isOk_validate_forgetLinkBudget (l : LinkBudget) :
    (forgetLinkBudget l).validate.isOk = l.validate.isOk := by
  simp [LinkBudget.validate, forgetLinkBudget]

@[simp] theorem isOk_validate_forgetATPC (a : ATPC) :
    (forgetATPC a).validate.isOk = a.validate.isOk := by
  simp [ATPC.validate, forgetATPC]

@[simp] theorem isOk_validate_forgetModProfile (p : ModProfile) :
    (forgetModProfile p).validate.isOk = p.validate.isOk := by
  simp only [ModProfile.validate, forgetModProfile, isOk_bind, isOk_require,
    positive_positiveZero, inRange_positiveZero]
  rfl

@[simp] theorem isOk_validate_forgetPTPClock (c : PTPClock) :
    (forgetPTPClock c).validate.isOk = c.validate.isOk := by
  simp only [PTPClock.validate, forgetPTPClock, isOk_bind, isOk_require,
    Float64.finite_positiveZero]
  rfl

/-- A change of the entries of a list that keeps their keys and their own validity
keeps the validity of the list. -/
theorem isOk_checkEntries_map {κ : Type} [DecidableEq κ] {validate : α → Check} {key : α → κ}
    {change : α → α} (hValid : ∀ entry, (validate (change entry)).isOk = (validate entry).isOk)
    (hKey : ∀ entry, key (change entry) = key entry) (label : Nat → Err) (duplicate : Nat → α → Err)
    (entries : List α) :
    (checkEntries label validate key duplicate 0 [] (entries.map change)).isOk =
      (checkEntries label validate key duplicate 0 [] entries).isOk := by
  rw [isOk_checkEntries, isOk_checkEntries]
  simp only [List.map_map, List.all_map, Function.comp_def, hValid, hKey, List.not_mem_nil,
    not_false_eq_true, implies_true]

@[simp] theorem isOk_validate_forgetRadioLink (r : RadioLink) :
    (forgetRadioLink r).validate.isOk = r.validate.isOk := by
  simp only [RadioLink.validate, isOk_bind, isOk_require, isOk_within]
  simp only [forgetRadioLink, inRange_positiveZero, Float64.finite_positiveZero,
    isOk_validate_forgetLinkBudget, isOk_validate_forgetATPC]
  rw [isOk_checkEntries_map isOk_validate_forgetModProfile (fun _ => rfl)]
  rfl

@[simp] theorem isOk_validate_forgetInterface (i : Interface) :
    (forgetInterface i).validate.isOk = i.validate.isOk := by
  simp only [Interface.validate, isOk_bind, isOk_require, forgetInterface]
  cases i.radioLink with
  | none => rfl
  | some link =>
    simp only [Option.map_some, isOk_within, isOk_validate_forgetRadioLink]
    rfl

theorem isOk_validate_forgetDevice (d : Device) :
    (forgetDevice d).validate.isOk = d.validate.isOk := by
  simp only [Device.validate, isOk_bind, isOk_within, forgetDevice, isOk_validate_forgetPTPClock]
  rw [isOk_checkEntries_map isOk_validate_forgetInterface (fun _ => rfl)]

/-- `Router.Validate` accepts a content or not, whatever the signs of its zeros. -/
theorem isOk_validateValues_congr (template : Device) (hSame : SameUpToZeroSign values values') :
    (validateValues template none values).isOk = (validateValues template none values').isOk := by
  have hIsOk : ∀ content, (validateValues template none content).isOk =
      (deviceFromValues template content).toOption.any fun device => device.validate.isOk := by
    intro content
    simp only [validateValues]
    cases deviceFromValues template content with
    | error err => rfl
    | ok device =>
      cases hDevice : device.validate <;>
        simp [hDevice, Except.toOption, Except.isOk, Except.toBool]
  rw [hIsOk, hIsOk]
  unfold deviceFromValues
  rcases (hydrate_agreeVia exactKeys_device template.toVals hSame).cases with
    ⟨left, right, hLeft, hRight, hView⟩ | ⟨left, right, hLeft, hRight⟩
  · rw [hLeft, hRight]
    show (Device.ofVals left).validate.isOk = (Device.ofVals right).validate.isOk
    rw [← isOk_validate_forgetDevice (Device.ofVals left), ← ofVals_forget_device, hView,
      ofVals_forget_device, isOk_validate_forgetDevice]
  · rw [hLeft, hRight]
    rfl

end Router
end TriadSim
