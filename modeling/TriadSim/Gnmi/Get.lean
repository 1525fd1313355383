import TriadSim.Datatree.Answers
import TriadSim.Gnmi.Values

/-!
# gNMI Get

`internal/gnmi/get.go` with the path checks of `path.go`: every path of a request is joined
with the prefix, checked against the schema, read, and answered as one notification whose
updates are the leaves of the node, with paths relative to the path of the request.
`get_answers_stored_leaves_iff` says for which nodes the answer is right.
-/

namespace TriadSim
namespace Gnmi

open Datatree Go Library Router Store

/-! ## Paths of a request -/

/-- `joinPrefix`. -/
def joinPrefix (lead : GoString) (rel : Option Path) : Except Status GoString := do
  let path ← routerPath rel
  if lead = [] then .ok path
  else if path = [] then .ok lead
  else .ok (lead ++ [47] ++ path)

/-- `schemaKind`. -/
def schemaKind (parent : List Segment) (name : GoString) : Except Status NodeKind :=
  match childrenOf (pathText parent) with
  | .error err => .error (statusError err)
  | .ok children =>
    match nodeNamed children name with
    | some child => .ok child.kind
    | none => .error ⟨.notFound, .text ("unknown element " ++ name)⟩

/-- `checkPath`.  The parsed path of a node has a last segment. -/
def checkPath (path : GoString) : Except Status Unit :=
  if path = [] then .ok ()
  else
    match parse path with
    | .error err =>
      .error (invalidArgument (.text "invalid path " ++ .piece (.quoted path) ++ .text ": " ++
        err.asText))
    | .ok segments =>
      match segments.getLast? with
      | none => .ok ()
      | some last => (schemaKind segments.dropLast last.name).map fun _ => ()

/-! ## Updates -/

/-- `gnmi.Update`. -/
structure Update (Raw : Type) where
  path : Path
  val : TypedValue Raw

/-- `gnmi.Notification`, without its timestamp. -/
structure Notification (Raw : Type) where
  lead : Path
  update : List (Update Raw)

/-- `relativePath`. -/
def relativePath (path base : GoString) : GoString :=
  if base = [] then path
  else if path = base then []
  else trimLead (trimLead path base) [47]

/-- The update of one leaf. -/
def leafUpdate (json : Json) (base : GoString) (encoding : Encoding) (leaf : GoString × Leaf) :
    Except Status (Update json.Raw) := do
  let value ← typedValue json leaf.1 leaf.2 encoding
  match gnmiPath (relativePath leaf.1 base) with
  | .error err => .error (statusError err)
  | .ok path => .ok ⟨path, value⟩

/-- `leafUpdates`: the walk meets the leaves in document order. -/
def leafUpdates (json : Json) (base : GoString) (encoding : Encoding) (node : DataNode) :
    Except Status (List (Update json.Raw)) :=
  node.leaves.mapM (leafUpdate json base encoding)

/-- The part of `notification` after the read. -/
def notificationOf (json : Json) (target : GoString) (encoding : Encoding) :
    Option DataNode → Except Status (Option (Notification json.Raw))
  | none => .ok none
  | some node => do
      let updates ← leafUpdates json target encoding node
      if updates.isEmpty then .ok none
      else
        match gnmiPath target with
        | .error err => .error (statusError err)
        | .ok lead => .ok (some ⟨lead, updates⟩)

/-! ## The handler -/

/-- Go on with the value of a step, or answer the status of its error. -/
def andThen {α β : Type} (step : Prog (Except Status α)) (next : α → Prog (Except Status β)) :
    Prog (Except Status β) :=
  step.bind fun
    | .error status => .ret (.error status)
    | .ok value => next value

/-- A program whose error becomes a status. -/
def orStatus {α : Type} (program : Prog (Except Err α)) : Prog (Except Status α) :=
  program.bind fun result => .ret (result.mapError statusError)

/-- `gnmi.GetRequest`. -/
structure GetRequest where
  lead : Option Path
  path : List Path
  type : DataType
  encoding : Encoding

/-- The paths of a request; a request without a path asks for the root. -/
def GetRequest.paths (request : GetRequest) : List Path :=
  if request.path = [] then [⟨[], [], []⟩] else request.path

/-- `notification`. -/
def notification (r : Router) (json : Json) (target : GoString) (content : Content)
    (encoding : Encoding) : Prog (Except Status (Option (Notification json.Raw))) :=
  andThen (orStatus (read r .running target content)) fun node =>
    .ret (notificationOf json target encoding node)

/-- The target of one path of a request. -/
def targetOf (lead : GoString) (path : Path) : Except Status GoString := do
  let target ← joinPrefix lead (some path)
  checkPath target
  return target

/-- The loop of `Get` over the paths. -/
def notifications (r : Router) (json : Json) (lead : GoString) (content : Content)
    (encoding : Encoding) : List Path → Prog (Except Status (List (Notification json.Raw)))
  | [] => .ret (.ok [])
  | path :: rest =>
    andThen (.ret (targetOf lead path)) fun target =>
      andThen (notification r json target content encoding) fun found =>
        andThen (notifications r json lead content encoding rest) fun others =>
          .ret (.ok (found.toList ++ others))

/-- `Get`; the answer is the list of notifications. -/
def get (r : Router) (json : Json) (request : GetRequest) :
    Prog (Except Status (List (Notification json.Raw))) :=
  andThen (.ret (routerPath request.lead)) fun lead =>
    andThen (.ret (encodingFor request.encoding)) fun encoding =>
      notifications r json lead (contentFor request.type) encoding request.paths

/-! ## A Get that runs alone -/

section Alone

variable {json : Json} {opts : Options} {machine : Machine json} {r : Router} {α β : Type}

/-- The rule for `andThen`, whatever the surroundings of the calls are. -/
theorem ensures_andThen {Env State : Type}
    {handle : Program.Handler Request Request.Response Env State} {state : State}
    {step : Prog (Except Status α)} {next : α → Prog (Except Status β)}
    {post : Except Status β → State → Prop}
    (hStep : Program.Ensures handle step (fun result after =>
      (∀ value, result = .ok value → Program.Ensures handle (next value) post after) ∧
        ∀ status, result = .error status → post (.error status) after) state) :
    Program.Ensures handle (andThen step next) post state := by
  refine Program.Ensures.bind hStep ?_
  rintro (status | value) after ⟨hOk, hError⟩
  · exact hError status rfl
  · exact hOk value rfl

theorem targetOf_eq_ok_iff {lead target : GoString} {path : Path} :
    targetOf lead path = .ok target ↔
      joinPrefix lead (some path) = .ok target ∧ checkPath target = .ok () := by
  unfold targetOf
  rw [bind_eq_ok_iff]
  constructor
  · rintro ⟨joined, hJoined, hRest⟩
    obtain ⟨done, hDone, hSame⟩ := bind_eq_ok_iff.mp hRest
    cases hSame
    exact ⟨hJoined, hDone⟩
  · rintro ⟨hJoined, hDone⟩
    exact ⟨target, hJoined, by rw [hDone]; rfl⟩

/-- What `Get` answers for one path, from what the datastore holds. -/
def answerTo (json : Json) (results : Std.ExtTreeMap GoString Result) (lead : GoString)
    (content : Content) (encoding : Encoding) (path : Path) :
    Except Status (Option (Notification json.Raw)) := do
  let target ← targetOf lead path
  let node ← (readNode results target content).mapError statusError
  notificationOf json target encoding node

variable {results : Std.ExtTreeMap GoString Result}

theorem ensures_live_notification (hResults : r.describeAll machine.memory.running = .ok results)
    (target : GoString) (content : Content) (encoding : Encoding) :
    (notification r json target content encoding).LiveEnsures opts (fun result after =>
      after = machine ∧ result = ((readNode results target content).mapError statusError >>=
        notificationOf json target encoding)) machine := by
  refine ensures_andThen (Program.Ensures.bind (ensures_live_read rfl hResults) ?_)
  rintro found after ⟨rfl, rfl⟩
  cases hRead : readNode results target content with
  | error err =>
    refine ⟨fun value hValue => ?_, fun status hStatus => ?_⟩
    · cases hValue
    · cases hStatus
      exact ⟨rfl, rfl⟩
  | ok node =>
    refine ⟨fun value hValue => ?_, fun status hStatus => ?_⟩
    · cases hValue
      exact ⟨rfl, rfl⟩
    · cases hStatus

theorem ensures_live_notifications (hResults : r.describeAll machine.memory.running = .ok results)
    (lead : GoString) (content : Content) (encoding : Encoding) (paths : List Path) :
    (notifications r json lead content encoding paths).LiveEnsures opts (fun result after =>
      after = machine ∧ result = (paths.mapM (answerTo json results lead content encoding)).map
        List.reduceOption) machine := by
  induction paths with
  | nil => exact ⟨rfl, rfl⟩
  | cons path rest ih =>
    rw [List.mapM_cons]
    refine ensures_andThen ⟨fun target hTarget => ?_, fun status hStatus => ?_⟩
    · have hAnswer : answerTo json results lead content encoding path =
          ((readNode results target content).mapError statusError >>=
            notificationOf json target encoding) := by
        rw [answerTo, hTarget]
        rfl
      refine ensures_andThen ((ensures_live_notification hResults target content
        encoding).mono ?_)
      rintro found after ⟨rfl, rfl⟩
      rw [← hAnswer]
      refine ⟨fun output hOutput => ?_, fun status hStatus => ?_⟩
      · rw [hOutput]
        refine ensures_andThen (ih.mono ?_)
        rintro others after ⟨rfl, rfl⟩
        cases hRest : rest.mapM (answerTo json results lead content encoding) with
        | error status =>
          refine ⟨fun value hValue => (by cases hValue), fun found hFound => ?_⟩
          cases hFound
          exact ⟨rfl, rfl⟩
        | ok outputs =>
          refine ⟨fun value hValue => ?_, fun found hFound => by cases hFound⟩
          cases hValue
          refine ⟨rfl, ?_⟩
          exact congrArg Except.ok (reduceOption_cons output outputs).symm
      · rw [hStatus]
        exact ⟨rfl, rfl⟩
    · rw [answerTo, hStatus]
      exact ⟨rfl, rfl⟩

end Alone

/-! ## Relative paths -/

/-- The names of a part of the schema do not have a byte. -/
def namesAvoid (byte : UInt8) : Nat → List SchemaNode → Bool
  | 0, nodes => nodes.isEmpty
  | depth + 1, nodes =>
    nodes.all fun child => !child.node.name.contains byte && namesAvoid byte depth child.children

theorem namesAvoid_deviceSchema : namesAvoid 58 5 deviceSchema = true := by
  decide +kernel

theorem not_mem_name_of_leafBelow {byte : UInt8} {depth : Nat} {nodes : List SchemaNode}
    (hNames : namesAvoid byte depth nodes = true) {segments : List Segment}
    (hLeaf : LeafBelow nodes segments) : ∀ segment ∈ segments, byte ∉ segment.name := by
  induction segments generalizing depth nodes with
  | nil => exact absurd hLeaf (by simp [LeafBelow])
  | cons first rest ih =>
    obtain ⟨child, hChild, _, hBelow⟩ := hLeaf
    obtain ⟨hMem, hName⟩ := childNamed_eq_some hChild
    cases depth with
    | zero =>
      rw [namesAvoid, List.isEmpty_iff] at hNames
      simp [hNames] at hMem
    | succ depth =>
      simp only [namesAvoid, List.all_eq_true, Bool.and_eq_true, Bool.not_eq_true',
        List.contains_eq_mem, decide_eq_false_iff_not] at hNames
      obtain ⟨hHere, hDeeper⟩ := hNames child hMem
      intro segment hSegment
      rcases List.mem_cons.mp hSegment with rfl | hRest
      · rwa [← hName]
      · cases hKind : child.node.kind with
        | leaf kind =>
          rw [hKind] at hBelow
          simp [hBelow] at hRest
        | container | list key =>
          rw [hKind] at hBelow
          exact ih hDeeper hBelow segment hRest

/-- The path of a leaf relative to a node above it is the rest of its segments. -/
theorem gnmiPath_relativePath {target path : GoString} {base rest : List Segment}
    (hTarget : baseSegments target = .ok base) (hPath : parse path = .ok (base ++ rest)) :
    gnmiPath target = .ok ⟨[], base.map elemOf, []⟩ ∧
      gnmiPath (relativePath path target) = .ok ⟨[], rest.map elemOf, []⟩ := by
  refine ⟨gnmiPath_of_baseSegments hTarget, ?_⟩
  rcases baseSegments_eq_ok hTarget with ⟨rfl, rfl⟩ | ⟨hNode, hTarget⟩
  · exact gnmiPath_of_baseSegments (baseSegments_of_parse_eq_ok hPath)
  · rw [relativePath, if_neg hNode]
    by_cases hRest : rest = []
    · subst hRest
      rw [List.append_nil] at hPath
      rw [if_pos (parse_injective hPath hTarget)]
      rfl
    · have hBack : parse (pathText rest) = .ok rest := parse_pathText hRest fun segment hSegment =>
        wellFormed_of_mem_parse hPath (List.mem_append_right base hSegment)
      have hText : path = target ++ 47 :: pathText rest := by
        rw [← pathText_of_parse_eq_ok hPath,
          pathText_append (ne_nil_of_parse_eq_ok hTarget) hRest, pathText_of_parse_eq_ok hTarget]
      have hOther : path ≠ target := by
        rw [hText]
        simp
      have hTrim : trimLead (trimLead path target) [47] = pathText rest := by
        rw [hText]
        simp [trimLead, hasPrefix]
      rw [if_neg hOther, hTrim]
      exact gnmiPath_of_baseSegments (baseSegments_of_parse_eq_ok hBack)

/-- The paths through a node begin with the same text. -/
theorem exists_lead_pathText (base : List Segment) :
    ∃ lead, ∀ tail, tail ≠ [] → pathText (base ++ tail) = lead ++ pathText tail := by
  cases base with
  | nil => exact ⟨[], fun _ _ => rfl⟩
  | cons first more =>
    refine ⟨pathText (first :: more) ++ [47], fun tail hTail => ?_⟩
    rw [pathText_append (List.cons_ne_nil _ _) hTail, List.append_assoc, List.singleton_append]

/-- The text of a path begins with the text of its first segment. -/
theorem exists_pathText_cons (segment : Segment) (rest : List Segment) :
    ∃ more, pathText (segment :: rest) = segment.text ++ more := by
  cases rest with
  | nil => exact ⟨[], by simp [pathText, join]⟩
  | cons next behind =>
    refine ⟨47 :: pathText (next :: behind), ?_⟩
    rw [← List.singleton_append, pathText_append (List.cons_ne_nil _ _) (List.cons_ne_nil _ _)]
    simp [pathText, join]

/-- No path begins with a predicate. -/
theorem gnmiPath_predicate (rest : GoString) : ∀ path, gnmiPath (91 :: rest) ≠ .ok path := by
  intro path hPath
  rw [gnmiPath, if_neg (List.cons_ne_nil _ _)] at hPath
  cases hParse : parse (91 :: rest) with
  | error err =>
    rw [hParse] at hPath
    cases hPath
  | ok segments =>
    obtain ⟨first, behind, rfl⟩ := List.exists_cons_of_ne_nil (ne_nil_of_parse_eq_ok hParse)
    obtain ⟨hName, _, hOpen⟩ := name_of_parse_eq_ok hParse List.mem_cons_self
    obtain ⟨byte, name, hByte⟩ := List.exists_cons_of_ne_nil hName
    obtain ⟨more, hMore⟩ := exists_pathText_cons first behind
    have hText := pathText_of_parse_eq_ok hParse
    have hFirst : ∃ tail, first.text = byte :: tail := by
      unfold Segment.text
      split <;> simp [hByte]
    obtain ⟨tail, hTail⟩ := hFirst
    rw [hMore, hTail] at hText
    cases (List.cons.inj hText).1
    exact hOpen (hByte ▸ List.mem_cons_self)

/-- The path of a leaf relative to its list is no path: it begins with the predicate of the
entry. -/
theorem gnmiPath_relativePath_of_list {target path : GoString} {base rest : List Segment}
    {last segment : Segment} (hTarget : parse target = .ok (base ++ [last]))
    (hPath : parse path = .ok (base ++ segment :: rest)) (hName : segment.name = last.name)
    (hBare : last.key = []) (hKeyed : segment.key ≠ []) :
    ∀ found, gnmiPath (relativePath path target) ≠ .ok found := by
  obtain ⟨lead, hLead⟩ := exists_lead_pathText base
  obtain ⟨more, hMore⟩ := exists_pathText_cons segment rest
  have hTargetText : target = lead ++ segment.name := by
    rw [← pathText_of_parse_eq_ok hTarget, hLead _ (List.cons_ne_nil _ _), hName]
    simp [pathText, join, Segment.text, hBare]
  have hPathText : ∃ behind, path = target ++ 91 :: behind := by
    rw [← pathText_of_parse_eq_ok hPath, hLead _ (List.cons_ne_nil _ _), hMore, hTargetText]
    exact ⟨_, by simp [Segment.text, hKeyed]; rfl⟩
  obtain ⟨behind, hPathText⟩ := hPathText
  have hRelative : relativePath path target = 91 :: behind := by
    rw [relativePath, if_neg (path_ne_nil_of_parse_eq_ok hTarget),
      if_neg (by rw [hPathText]; simp), hPathText]
    simp [trimLead, hasPrefix]
  rw [hRelative]
  exact gnmiPath_predicate behind

/-! ## The answer of Get -/

section Answer

variable {json : Json} {results : Std.ExtTreeMap GoString Result} {content : Content}
  {encoding : Encoding} {target : GoString}

/-- An update is about a leaf: joined with the prefix its path is the path of the leaf, and
its value is the value of the leaf in the encoding. -/
def Carries (json : Json) (encoding : Encoding) (lead : Path) (leaf : GoString × Leaf)
    (update : Update json.Raw) : Prop :=
  routerPath (some ⟨[], lead.elem ++ update.path.elem, []⟩) = .ok leaf.1 ∧
    typedValue json leaf.1 leaf.2 encoding = .ok update.val

/-- What is answered for a node: one update for each stored leaf at or below it that is asked
for, and no notification if there is none. -/
def Answers (json : Json) (results : Std.ExtTreeMap GoString Result) (content : Content)
    (encoding : Encoding) (target : GoString) (found : Option (Notification json.Raw)) : Prop :=
  ∃ leaves, Lists (shown results content) (AtOrBelow target) leaves ∧
    match found with
    | none => leaves = []
    | some notification => leaves ≠ [] ∧ gnmiPath target = .ok notification.lead ∧
        List.Forall₂ (Carries json encoding notification.lead) leaves notification.update

/-- A path that names a list without a key. -/
def WholeList (target : GoString) : Prop :=
  ∃ base last nodes child key, Leads target base last nodes child ∧ last.key = [] ∧
    child.node.kind = .list key

/-- What it takes to render the leaves of a node: a list without a key has none, and
`encoding/json` takes all of them. -/
structure Renders (json : Json) (results : Std.ExtTreeMap GoString Result) (content : Content)
    (target : GoString) : Prop where
  whole : WholeList target → ∀ path, AtOrBelow target path → shown results content path = none
  marshals : ∀ path leaf, AtOrBelow target path → shown results content path = some leaf →
    ∃ encoded, json.marshal leaf = .ok encoded

variable {base : List Segment} {last : Segment} {nodes : List SchemaNode} {child : SchemaNode}
    {leaf : GoString × Leaf} {lead : Path} {node : Option DataNode}

theorem checkPath_of_leads (hLeads : Leads target base last nodes child) :
    checkPath target = .ok () := by
  obtain ⟨hParse, hBelow, hChild⟩ := hLeads
  have hChildren := childrenOf_of_schemaBelow (baseSegments_pathText hParse) hBelow
  rw [checkPath, if_neg (path_ne_nil_of_parse_eq_ok hParse), hParse]
  simp only [List.getLast?_concat, List.dropLast_concat, schemaKind, hChildren, nodeNamed_map,
    hChild]
  rfl

theorem checkPath_of_namesNode (hNames : NamesNode target) : checkPath target = .ok () := by
  rcases hNames with rfl | ⟨base, last, nodes, child, hLeads, _⟩
  · rfl
  · exact checkPath_of_leads hLeads

/-- A stored leaf at or below a node extends the path of the node, unless the node is a list
without a key. -/
theorem exists_rest_of_atOrBelow (hRegular : Regular results) (hNames : NamesNode target)
    (hPart : ¬ WholeList target) {path : GoString} (hPath : path ∈ results)
    (hBelow : AtOrBelow target path) :
    ∃ base rest, baseSegments target = .ok base ∧ parse path = .ok (base ++ rest) := by
  rcases hNames with rfl | ⟨base, last, nodes, child, hLeads, hKey⟩
  · obtain ⟨segments, hParse, _⟩ := hRegular path hPath
    exact ⟨[], segments, rfl, hParse⟩
  · obtain ⟨segment, rest, hParse, hName, hSegment⟩ := hLeads.atOrBelow_iff.mp hBelow
    refine ⟨base ++ [last], rest, baseSegments_of_parse_eq_ok hLeads.parsed, ?_⟩
    have hEqual : segment = last := hLeads.segment_eq hParse hName hSegment fun hBare => by
      -- no list is named without a key, so that the stored segment has no key either
      have hInner : ∀ key, child.node.kind ≠ .list key := fun key hKind =>
        hPart ⟨base, last, nodes, child, key, hLeads, hBare, hKind⟩
      obtain ⟨other, hOther, hPredicate, _⟩ := hRegular.leafBelow hLeads.below hPath hParse
      rw [hName] at hOther
      cases hOther.symm.trans hLeads.child
      exact (checkPredicate_inner_iff hInner).mp hPredicate
    rw [hEqual] at hParse
    simpa using hParse

/-- The update of a leaf at or below a node is about the leaf. -/
theorem carries_of_leafUpdate_eq_ok (hRegular : Regular results) (hNames : NamesNode target)
    (hPart : ¬ WholeList target) (hBelow : AtOrBelow target leaf.1) (hPath : leaf.1 ∈ results)
    (hLead : gnmiPath target = .ok lead) {update : Update json.Raw}
    (hUpdate : leafUpdate json target encoding leaf = .ok update) :
    Carries json encoding lead leaf update := by
  obtain ⟨base, rest, hTarget, hParse⟩ :=
    exists_rest_of_atOrBelow hRegular hNames hPart hPath hBelow
  obtain ⟨hPrefix, hRelative⟩ := gnmiPath_relativePath hTarget hParse
  cases hPrefix.symm.trans hLead
  obtain ⟨typed, hTyped, hUpdate⟩ := bind_eq_ok_iff.mp hUpdate
  rw [hRelative] at hUpdate
  cases hUpdate
  refine ⟨?_, hTyped⟩
  obtain ⟨segments, hSegments, hLeaf⟩ := hRegular leaf.1 hPath
  cases hSegments.symm.trans hParse
  have hColon := not_mem_name_of_leafBelow namesAvoid_deviceSchema hLeaf
  have hJoined := elementsToPath_map_elemOf hParse hColon
  have hElems : (base ++ rest).map elemOf ≠ [] := by
    simpa using ne_nil_of_parse_eq_ok hParse
  rw [List.map_append] at hJoined hElems
  unfold routerPath
  dsimp only
  rw [if_neg (by decide), if_pos hElems]
  exact hJoined

/-- A leaf at or below a node that can be rendered has an update. -/
theorem leafUpdate_carries (hRegular : Regular results) (hNames : NamesNode target)
    (hPart : ¬ WholeList target) (hRenders : Renders json results content target)
    (hBelow : AtOrBelow target leaf.1) (hShown : shown results content leaf.1 = some leaf.2)
    (hLead : gnmiPath target = .ok lead) :
    ∃ update, leafUpdate json target encoding leaf = .ok update ∧
      Carries json encoding lead leaf update := by
  have hPath : leaf.1 ∈ results := mem_of_isSome_shown (by rw [hShown]; rfl)
  obtain ⟨base, rest, hTarget, hParse⟩ :=
    exists_rest_of_atOrBelow hRegular hNames hPart hPath hBelow
  obtain ⟨encoded, hMarshal⟩ := hRenders.marshals _ _ hBelow hShown
  obtain ⟨typed, hTyped⟩ := exists_typedValue_of_marshal hMarshal leaf.1 encoding
  have hUpdate : leafUpdate json target encoding leaf = .ok ⟨⟨[], rest.map elemOf, []⟩, typed⟩ := by
    refine bind_eq_ok_iff.mpr ⟨typed, hTyped, ?_⟩
    rw [(gnmiPath_relativePath hTarget hParse).2]
  exact ⟨_, hUpdate, carries_of_leafUpdate_eq_ok hRegular hNames hPart hBelow hPath hLead hUpdate⟩

theorem gnmiPath_of_namesNode (hNames : NamesNode target) : ∃ lead, gnmiPath target = .ok lead := by
  rcases hNames with rfl | ⟨base, last, nodes, child, hLeads, _⟩
  · exact ⟨_, rfl⟩
  · exact ⟨_, gnmiPath_of_baseSegments (baseSegments_of_parse_eq_ok hLeads.parsed)⟩

/-- The updates of an answered node are those of its leaves. -/
theorem notificationOf_eq (json : Json) (target : GoString) (encoding : Encoding)
    (node : Option DataNode) :
    notificationOf json target encoding node =
      ((answeredLeaves node).mapM (leafUpdate json target encoding) >>= fun updates =>
        if updates.isEmpty then .ok none
        else
          match gnmiPath target with
          | .error err => .error (statusError err)
          | .ok lead => .ok (some ⟨lead, updates⟩)) := by
  cases node with
  | none => rfl
  | some node =>
    have hLeaves : answeredLeaves (some node) = node.leaves := by
      simp [answeredLeaves, leavesOfAll]
    rw [hLeaves]
    rfl

/-- A node that can be rendered is answered. -/
theorem notificationOf_answers (encoding : Encoding) (hRegular : Regular results)
    (hNames : NamesNode target) (hRenders : Renders json results content target)
    (hLists : Lists (shown results content) (AtOrBelow target) (answeredLeaves node)) :
    ∃ found, notificationOf json target encoding node = .ok found ∧
      Answers json results content encoding target found := by
  rw [notificationOf_eq]
  by_cases hNone : answeredLeaves node = []
  · refine ⟨none, by rw [hNone]; rfl, [], ?_, rfl⟩
    rwa [hNone] at hLists
  · obtain ⟨lead, hLead⟩ := gnmiPath_of_namesNode hNames
    have hShown : ∀ leaf ∈ answeredLeaves node,
        AtOrBelow target leaf.1 ∧ shown results content leaf.1 = some leaf.2 :=
      fun leaf hLeaf => (hLists.mem_iff leaf.1 leaf.2).mp hLeaf
    have hPart : ¬ WholeList target := by
      intro hWhole
      obtain ⟨first, rest, hLeaves⟩ := List.exists_cons_of_ne_nil hNone
      obtain ⟨hBelow, hValue⟩ := hShown first (hLeaves ▸ List.mem_cons_self)
      rw [hRenders.whole hWhole first.1 hBelow] at hValue
      cases hValue
    have hUpdates : ∀ leaf ∈ answeredLeaves node, ∃ update,
        leafUpdate json target encoding leaf = .ok update ∧
          Carries json encoding lead leaf update :=
      fun leaf hLeaf => leafUpdate_carries hRegular hNames hPart hRenders (hShown leaf hLeaf).1
        (hShown leaf hLeaf).2 hLead
    obtain ⟨updates, hMap, hEach⟩ := exists_mapM_eq_ok hUpdates
    have hSome : updates.isEmpty = false := by
      rw [List.isEmpty_eq_false_iff]
      rintro rfl
      exact hNone (List.forall₂_nil_right_iff.mp hEach)
    refine ⟨some ⟨lead, updates⟩, ?_, answeredLeaves node, hLists, hNone, hLead,
      hEach.imp fun _ _ hBoth => hBoth.2⟩
    rw [hMap]
    show (if updates.isEmpty then _ else _) = _
    rw [hSome, hLead]
    rfl

/-- The updates of an answer are about stored leaves. -/
theorem stored_of_answers {r : Router} {stored : Values} {found : Notification json.Raw}
    (hResults : r.describeAll stored = .ok results)
    (hAnswers : Answers json results content encoding target (some found)) :
    ∀ update ∈ found.update, ∃ path leaf, stored[path]? = some leaf ∧
      routerPath (some ⟨[], found.lead.elem ++ update.path.elem, []⟩) = .ok path := by
  obtain ⟨leaves, hLists, _, _, hCarries⟩ := hAnswers
  intro update hUpdate
  obtain ⟨leaf, hLeaf, hJoined, _⟩ := exists_of_mem_right hCarries hUpdate
  obtain ⟨_, hShown⟩ := (hLists.mem_iff leaf.1 leaf.2).mp hLeaf
  exact ⟨leaf.1, leaf.2, stored_of_shown hResults hShown, hJoined⟩

/-- The leaves of a node that is answered have updates. -/
theorem exists_leafUpdate_of_notificationOf_eq_ok {found : Option (Notification json.Raw)}
    (hFound : notificationOf json target encoding node = .ok found) :
    ∀ leaf ∈ answeredLeaves node, ∃ update,
      leafUpdate json target encoding leaf = .ok update := by
  rw [notificationOf_eq] at hFound
  obtain ⟨updates, hUpdates, _⟩ := bind_eq_ok_iff.mp hFound
  intro leaf hLeaf
  obtain ⟨update, _, hUpdate⟩ := exists_of_mem_right (mapM_eq_ok_iff.mp hUpdates).flip hLeaf
  exact ⟨update, hUpdate⟩

/-- There is no notification exactly if there is no leaf. -/
theorem notificationOf_eq_none_iff {found : Option (Notification json.Raw)}
    (hFound : notificationOf json target encoding node = .ok found) :
    found = none ↔ answeredLeaves node = [] := by
  rw [notificationOf_eq] at hFound
  obtain ⟨updates, hUpdates, hFound⟩ := bind_eq_ok_iff.mp hFound
  have hLength := (mapM_eq_ok_iff.mp hUpdates).length_eq
  rw [← List.length_eq_zero_iff, hLength, List.length_eq_zero_iff]
  split at hFound
  · next hEmpty =>
    cases hFound
    simpa using hEmpty
  · next hSome =>
    cases hLead : gnmiPath target with
    | error err =>
      rw [hLead] at hFound
      cases hFound
    | ok lead =>
      rw [hLead] at hFound
      cases hFound
      simpa using hSome

/-- A node is answered only if it can be rendered. -/
theorem renders_of_notificationOf_eq_ok {found : Option (Notification json.Raw)}
    (hRegular : Regular results)
    (hLists : Lists (shown results content) (AtOrBelow target) (answeredLeaves node))
    (hFound : notificationOf json target encoding node = .ok found) :
    Renders json results content target := by
  have hUpdates : ∀ path leaf, AtOrBelow target path → shown results content path = some leaf →
      ∃ update, leafUpdate json target encoding (path, leaf) = .ok update :=
    fun path leaf hBelow hShown => exists_leafUpdate_of_notificationOf_eq_ok hFound _
      ((hLists.mem_iff path leaf).mpr ⟨hBelow, hShown⟩)
  constructor
  · rintro ⟨base, last, nodes, child, key, hLeads, hBare, hKind⟩ path hBelow
    by_contra hSome
    obtain ⟨leaf, hShown⟩ := Option.ne_none_iff_exists'.mp hSome
    obtain ⟨update, hUpdate⟩ := hUpdates path leaf hBelow hShown
    obtain ⟨_, _, hRelative⟩ := bind_eq_ok_iff.mp hUpdate
    obtain ⟨segment, rest, hParse, hName, _⟩ := hLeads.atOrBelow_iff.mp hBelow
    have hPath : path ∈ results := mem_of_isSome_shown (by rw [hShown]; rfl)
    -- the stored path goes through an entry of the list, so that its segment has a key
    obtain ⟨other, hOther, hPredicate, _⟩ := hRegular.leafBelow hLeads.below hPath hParse
    rw [hName] at hOther
    cases hOther.symm.trans hLeads.child
    rw [hKind] at hPredicate
    have hNone := gnmiPath_relativePath_of_list hLeads.parsed hParse hName hBare
      (checkPredicate_list_iff.mp hPredicate).1
    cases hGnmi : gnmiPath (relativePath path target) with
    | error err =>
      rw [hGnmi] at hRelative
      cases hRelative
    | ok relative => exact hNone relative hGnmi
  · intro path leaf hBelow hShown
    obtain ⟨update, hUpdate⟩ := hUpdates path leaf hBelow hShown
    obtain ⟨typed, hTyped, _⟩ := bind_eq_ok_iff.mp hUpdate
    exact exists_marshal_of_typedValue_eq_ok hTyped

/-- A path with a predicate at a list that has another key. -/
def ForeignKey (target : GoString) : Prop :=
  ∃ base segment rest nodes child key, parse target = .ok (base ++ segment :: rest) ∧
    SchemaBelow base nodes ∧ childNamed nodes segment.name = some child ∧
    child.node.kind = .list key ∧ segment.key ≠ [] ∧ segment.key ≠ key

/-- No entry of the list that a path ends at has the value of its last predicate. -/
def Unmatched (results : Std.ExtTreeMap GoString Result) (content : Content) (target : GoString) :
    Prop :=
  ∀ base last nodes child key, Leads target base last nodes child →
    child.node.kind = .list key → last.key ≠ [] → last.key ≠ key →
    ∀ path rest, parse path = .ok (base ++ ⟨child.node.name, key, last.value⟩ :: rest) →
      shown results content path = none

/-- A foreign key above the last segment fails the check of the path. -/
theorem checkPath_of_foreignKey {rest : List Segment} {segment : Segment} {key : GoString}
    (hParse : parse target = .ok (base ++ segment :: rest ++ [last]))
    (hBelow : SchemaBelow base nodes) (hChild : childNamed nodes segment.name = some child)
    (hKind : child.node.kind = .list key) (hOther : segment.key ≠ key) :
    ∀ done, checkPath target ≠ .ok done := by
  intro done hCheck
  rw [checkPath, if_neg (path_ne_nil_of_parse_eq_ok hParse), hParse] at hCheck
  simp only [List.getLast?_concat, List.dropLast_concat, schemaKind] at hCheck
  cases hChildren : childrenOf (pathText (base ++ segment :: rest)) with
  | ok found =>
    obtain ⟨below, hDeeper, _⟩ :=
      exists_schemaBelow_of_childrenOf (baseSegments_pathText hParse) hChildren
    have hPredicate := hDeeper.checkPredicate hBelow hChild
    rw [hKind] at hPredicate
    exact hOther (checkPredicate_list_iff.mp hPredicate).2
  | error err =>
    rw [hChildren] at hCheck
    cases hCheck

/-- A path with a foreign key that is answered is answered with no notification exactly if no
entry has its value. -/
theorem answerTo_eq_none_iff_unmatched {lead : GoString} {path : Path}
    {found : Option (Notification json.Raw)} (hRegular : Regular results)
    (hTarget : joinPrefix lead (some path) = .ok target) (hForeign : ForeignKey target)
    (hAnswer : answerTo json results lead content encoding path = .ok found) :
    found = none ↔ Unmatched results content target := by
  obtain ⟨base, segment, rest, nodes, child, key, hParse, hBelow, hChild, hKind, hKeyed, hOther⟩ :=
    hForeign
  obtain ⟨checked, hChecked, hRest⟩ := bind_eq_ok_iff.mp hAnswer
  obtain ⟨hSame, hCheck⟩ := targetOf_eq_ok_iff.mp hChecked
  cases hSame.symm.trans hTarget
  rcases List.eq_nil_or_concat rest with rfl | ⟨more, last, rfl⟩
  · have hLeads : Leads target base segment nodes child := ⟨hParse, hBelow, hChild⟩
    obtain ⟨node, hRead, hLists⟩ := readNode_entry content hRegular hLeads hKind hKeyed
    rw [hRead] at hRest
    rw [notificationOf_eq_none_iff hRest, List.eq_nil_iff_forall_not_mem]
    constructor
    · intro hEmpty base' last' nodes' child' key' hOther hListed _ _ path behind hPath
      obtain ⟨rfl, rfl, rfl, rfl⟩ := hLeads.unique hOther
      cases hListed.symm.trans hKind
      by_contra hSome
      obtain ⟨leaf, hShown⟩ := Option.ne_none_iff_exists'.mp hSome
      have hMem : path ∈ results := mem_of_isSome_shown (by rw [hShown]; rfl)
      exact hEmpty (path, leaf) ((hLists.mem_iff path leaf).mpr
        ⟨(hRegular.under_entry_iff hLeads hMem hKind).mpr ⟨behind, hPath⟩, hShown⟩)
    · intro hUnmatched leaf hLeaf
      obtain ⟨⟨behind, hPath, _⟩, hShown⟩ := (hLists.mem_iff leaf.1 leaf.2).mp hLeaf
      rw [hUnmatched base segment nodes child key hLeads hKind hKeyed hOther leaf.1 behind
        (by simpa using hPath)] at hShown
      cases hShown
  · have hSplit : parse target = .ok (base ++ segment :: more ++ [last]) := by
      rw [hParse]
      simp
    exact absurd hCheck (checkPath_of_foreignKey hSplit hBelow hChild hKind hOther ())

end Answer

/-! ## Get -/

section Get

variable {json : Json} {opts : Options} {machine : Machine json} {r : Router}
  {results : Std.ExtTreeMap GoString Result} {request : GetRequest} {lead : GoString}
  {encoding : Encoding}

/-- `Get` that is not cancelled answers its paths one by one. -/
theorem ensures_live_get (hResults : r.describeAll machine.memory.running = .ok results)
    (hLead : routerPath request.lead = .ok lead)
    (hEncoding : encodingFor request.encoding = .ok encoding) :
    (get r json request).LiveEnsures opts (fun result _ =>
      result = (request.paths.mapM (answerTo json results lead (contentFor request.type)
        encoding)).map List.reduceOption) machine := by
  refine ensures_andThen ⟨fun found hFound => ?_, fun status hStatus => ?_⟩
  · cases hFound.symm.trans hLead
    refine ensures_andThen ⟨fun accepted hAccepted => ?_, fun status hStatus => ?_⟩
    · cases hAccepted.symm.trans hEncoding
      exact (ensures_live_notifications hResults _ _ _ _).mono fun _ _ hBoth => hBoth.2
    · cases hStatus.symm.trans hEncoding
  · cases hStatus.symm.trans hLead

/-- The answer to a path that names a node is the notification of the node's leaves. -/
theorem answerTo_of_namesNode (json : Json) (encoding : Encoding) (content : Content) {path : Path}
    {target : GoString} (hRegular : Regular results)
    (hTarget : joinPrefix lead (some path) = .ok target) (hNames : NamesNode target) :
    ∃ node, answerTo json results lead content encoding path =
        notificationOf json target encoding node ∧
      Lists (shown results content) (AtOrBelow target) (answeredLeaves node) := by
  obtain ⟨node, hRead, hLists⟩ := readNode_lists content hRegular hNames
  refine ⟨node, ?_, hLists⟩
  rw [answerTo, targetOf_eq_ok_iff.mpr ⟨hTarget, checkPath_of_namesNode hNames⟩]
  show ((readNode results target content).mapError statusError >>= _) = _
  rw [hRead]
  rfl

/-- `Get` on a running content whose paths the router describes and the schema has.  If every
path of the request names a node, then `Get` succeeds and each path is answered with one update
for each stored leaf at or below the node that the data type asks for exactly if the leaves of
every node can be rendered.  In every successful answer, a path whose predicate has a key that
the list does not have is answered with no data exactly if no entry of the list has its value. -/
theorem get_answers_stored_leaves_iff (opts : Options) (r : Router) (request : GetRequest)
    (machine : Machine json) (results : Std.ExtTreeMap GoString Result) (lead : GoString)
    (encoding : Encoding) (targets : List GoString)
    (hResults : r.describeAll machine.memory.running = .ok results)
    (hStored : ∀ path ∈ machine.memory.running, OnSchema path)
    (hLead : routerPath request.lead = .ok lead)
    (hEncoding : encodingFor request.encoding = .ok encoding)
    (hTargets : List.Forall₂ (fun path target => joinPrefix lead (some path) = .ok target)
      request.paths targets)
    (env : Nat → CallEnv) (hLive : ∀ index, (env index).ctx = none) :
    ((∀ target ∈ targets, NamesNode target) →
      ((∃ found, ((get r json request).run opts env machine).1 = .ok found.reduceOption ∧
          List.Forall₂ (Answers json results (contentFor request.type) encoding) targets found) ↔
        ∀ target ∈ targets, Renders json results (contentFor request.type) target)) ∧
    ∀ answered, ((get r json request).run opts env machine).1 = .ok answered →
      ∃ found, answered = found.reduceOption ∧
        List.Forall₂ (fun target output => ForeignKey target →
          (output = none ↔ Unmatched results (contentFor request.type) target)) targets found := by
  have hRegular : Regular results := regular_of_describeAll hResults hStored
  have hRun := Prog.LiveEnsures.run (@ensures_live_get _ opts _ _ _ _ _ _ hResults hLead hEncoding)
    env hLive
  refine ⟨fun hNames => ⟨?_, fun hRenders => ?_⟩, ?_⟩
  · -- every path of an answered request has a notification, or none for a node without leaves
    rintro ⟨found, hFound, _⟩ target hMem
    obtain ⟨outputs, hMap, _⟩ := map_eq_ok_iff.mp (hRun.symm.trans hFound)
    obtain ⟨path, hPath, hTarget⟩ := exists_of_mem_right hTargets hMem
    obtain ⟨output, _, hAnswer⟩ := exists_of_mem_right (mapM_eq_ok_iff.mp hMap).flip hPath
    obtain ⟨node, hSame, hLists⟩ := answerTo_of_namesNode json encoding (contentFor request.type)
      hRegular hTarget (hNames target hMem)
    exact renders_of_notificationOf_eq_ok hRegular hLists (hSame.symm.trans hAnswer)
  · have hEach : ∀ path ∈ request.paths, ∃ found,
        answerTo json results lead (contentFor request.type) encoding path = .ok found ∧
          ∃ target, joinPrefix lead (some path) = .ok target ∧
            Answers json results (contentFor request.type) encoding target found := by
      intro path hPath
      obtain ⟨target, hMem, hTarget⟩ := exists_of_mem_right hTargets.flip hPath
      obtain ⟨node, hSame, hLists⟩ := answerTo_of_namesNode json encoding (contentFor request.type)
        hRegular hTarget (hNames target hMem)
      obtain ⟨found, hAnswer, hAnswers⟩ := notificationOf_answers encoding hRegular
        (hNames target hMem) (hRenders target hMem) hLists
      exact ⟨found, hSame.trans hAnswer, target, hTarget, hAnswers⟩
    obtain ⟨found, hMap, hAll⟩ := exists_mapM_eq_ok hEach
    rw [hMap] at hRun
    refine ⟨found, hRun, (forall₂_comp hTargets.flip hAll).imp ?_⟩
    rintro target output ⟨path, hTarget, _, other, hOther, hAnswers⟩
    cases Except.ok.inj (hTarget.symm.trans hOther)
    exact hAnswers
  · intro answered hAnswered
    obtain ⟨found, hMap, rfl⟩ := map_eq_ok_iff.mp (hRun.symm.trans hAnswered)
    refine ⟨found, rfl, (forall₂_comp hTargets.flip (mapM_eq_ok_iff.mp hMap)).imp ?_⟩
    rintro target output ⟨path, hTarget, hAnswer⟩ hForeign
    exact answerTo_eq_none_iff_unmatched hRegular hTarget hForeign hAnswer

/-- A content with one leaf. -/
theorem eq_of_getElem?_single {path other : GoString} {leaf value : Leaf}
    (hLeaf : ((∅ : Values).insert path leaf)[other]? = some value) :
    other = path ∧ value = leaf := by
  rw [FinMap.getElem?_insert_ite] at hLeaf
  split at hLeaf
  · next hSame =>
    cases hLeaf
    exact ⟨hSame.symm, rfl⟩
  · simp at hLeaf

theorem onSchema_of_mem_single {path : GoString} {leaf : Leaf} (hPath : OnSchema path) :
    ∀ other ∈ (∅ : Values).insert path leaf, OnSchema other := by
  intro other hOther
  obtain ⟨value, hValue⟩ := Option.isSome_iff_exists.mp ((FinMap.mem_iff_isSome _ _).mp hOther)
  rwa [(eq_of_getElem?_single hValue).1]

/-- A device with one VLAN. -/
def vlanContent : Values :=
  (∅ : Values).insert "vlans/vlan[id=7]/name" (.string "lab")

/-- A Get of the root, in JSON. -/
def rootRequest : GetRequest :=
  ⟨none, [], .all, .json⟩

theorem get_root_answers_vlan :
    ∃ results found, defaultRouter.describeAll vlanContent = .ok results ∧
      ((get defaultRouter Json.plain rootRequest).run (defaultRouter.options [])
        (fun _ => CallEnv.quiet) (machineWith vlanContent)).1 = .ok found.reduceOption ∧
      List.Forall₂ (Answers Json.plain results .all .json) [[]] found := by
  obtain ⟨results, hResults⟩ := exists_eq_ok_of_isOk
    (show (defaultRouter.describeAll vlanContent).isOk = true by decide +kernel)
  have hStored : ∀ path ∈ vlanContent, OnSchema path :=
    onSchema_of_mem_single (by decide +kernel)
  have hRenders : Renders Json.plain results .all [] := by
    refine ⟨?_, ?_⟩
    · rintro ⟨base, last, nodes, child, key, hLeads, _⟩
      cases hLeads.parsed
    · intro path leaf _ hShown
      obtain ⟨_, rfl⟩ := eq_of_getElem?_single (stored_of_shown hResults hShown)
      exact ⟨_, rfl⟩
  obtain ⟨found, hRun, hAnswers⟩ := ((get_answers_stored_leaves_iff (defaultRouter.options [])
    defaultRouter rootRequest (machineWith vlanContent) results [] .json [[]] hResults hStored rfl
    rfl (.cons rfl .nil) (fun _ => CallEnv.quiet) fun _ => rfl).1
      (List.forall_mem_singleton.mpr (Or.inl rfl))).mpr (List.forall_mem_singleton.mpr hRenders)
  exact ⟨results, found, hResults, hRun, hAnswers⟩

/-- The elements of a path below the VLANs. -/
def vlanRequest (key : Std.ExtTreeMap GoString GoString) : GetRequest :=
  ⟨none, [⟨[], [⟨"vlans", ∅⟩, ⟨"vlan", key⟩], []⟩], .all, .json⟩

/-- The list of VLANs cannot be read as a whole once it has an entry, and an entry is answered
under a key that the list does not have. -/
theorem get_fails_on_list_and_answers_foreign_key :
    ((get defaultRouter Json.plain (vlanRequest ∅)).run (defaultRouter.options [])
        (fun _ => CallEnv.quiet) (machineWith vlanContent)).1.isOk = false ∧
      ((get defaultRouter Json.plain (vlanRequest ((∅ : Std.ExtTreeMap GoString GoString).insert
          "name" "7"))).run (defaultRouter.options []) (fun _ => CallEnv.quiet)
          (machineWith vlanContent)).1.toOption.map List.length = some 1 := by
  decide +kernel

end Get

end Gnmi
end TriadSim
