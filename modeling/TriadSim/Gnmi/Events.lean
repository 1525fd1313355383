import TriadSim.Events.Publishers
import TriadSim.Gnmi.Get

/-!
# Events and subscriptions

`internal/gnmi/events.go` with the path comparison of `path.go`: an event is mapped to the
path of the node it is about, and a subscription is notified if its path and that path lie on
one another.  `events_reach_subscriptions_iff` says for which events and subscriptions the path
is that of the node, the subscription is notified and the notification is about stored leaves.
-/

namespace TriadSim
namespace Gnmi

open Datatree Events Go Library Router Store

/-! ## Affected paths -/

/-- `plainName`. -/
def plainName (text : GoString) : Bool :=
  text ≠ [] && !containsAny text [47, 91, 93, 61]

/-- `portPath`. -/
def portPath (port list : GoString) : List GoString :=
  if plainName port then [list ++ "[name=" ++ port ++ "]"] else []

/-- `affectedPaths`. -/
def affectedPaths (event : Events.Event) : List GoString :=
  if event.type = .configChanged then [[]]
  else if event.resource = [] then []
  else if event.resource = "ptp/clock" then ["ptp/clock"]
  else if hasPrefix event.resource "l2/stp/" then
    portPath (trimLead event.resource "l2/stp/") "stp/state/ports/port"
  else if hasPrefix event.resource "l2/storm/" then
    portPath (trimLead event.resource "l2/storm/") "interfaces/interface"
  else if plainName event.resource then
    ["interfaces/interface[name=" ++ event.resource ++ "]/radio-link"]
  else []

/-! ## Matching -/

/-- `parseSegments`. -/
def parseSegments (path : GoString) : Option (List Segment) :=
  if path = [] then some [] else (parse path).toOption

/-- `isPrefix`; the loop compares segment by segment. -/
def isPrefix (outer inner : List Segment) : Bool :=
  outer.isPrefixOf inner

/-- `pathsOverlap`. -/
def pathsOverlap (a b : GoString) : Bool :=
  match parseSegments a, parseSegments b with
  | some first, some second => isPrefix first second || isPrefix second first
  | _, _ => false

/-- `matchesSubscription`. -/
def matchesSubscription (subscription affected : GoString) : Bool :=
  affected = [] || pathsOverlap subscription affected

/-- `notificationTarget`. -/
def notificationTarget (subscription affected : GoString) : GoString :=
  if subscription = [] then affected else subscription

/-- The loop of `sendEvent` over the subscriptions, for one affected path: the targets in
their order, each one once. -/
def targetsFor (affected : GoString) : List GoString → List GoString → List GoString
  | _, [] => []
  | notified, subscription :: rest =>
    if matchesSubscription subscription affected then
      let target := notificationTarget subscription affected
      if target ∈ notified then targetsFor affected notified rest
      else target :: targetsFor affected (target :: notified) rest
    else targetsFor affected notified rest

/-- The targets that `sendEvent` notifies. -/
def eventTargets (paths : List GoString) (event : Events.Event) : List GoString :=
  (affectedPaths event).flatMap fun affected => targetsFor affected [] paths

/-! ## The node of an event -/

section Node

variable {name : GoString} {publication : Publication}

theorem plainName_spec (hPlain : plainName name = true) :
    name ≠ [] ∧ 47 ∉ name ∧ 91 ∉ name ∧ 93 ∉ name ∧ 61 ∉ name := by
  simp only [plainName, Bool.and_eq_true, decide_eq_true_eq, Bool.not_eq_true', containsAny,
    List.any_eq_false, List.contains_eq_mem, List.mem_cons, List.not_mem_nil, or_false,
    not_or] at hPlain
  obtain ⟨hSome, hAvoids⟩ := hPlain
  exact ⟨hSome, fun hMem => (hAvoids 47 hMem).1 rfl, fun hMem => (hAvoids 91 hMem).2.1 rfl,
    fun hMem => (hAvoids 93 hMem).2.2.1 rfl, fun hMem => (hAvoids 61 hMem).2.2.2 rfl⟩

/-- The segment of a list entry. -/
theorem wellFormed_entry {key value : GoString} (hName : Router.plainName name = true)
    (hKey : plainName key = true) (hValue : plainName value = true) :
    Segment.WellFormed ⟨name, key, value⟩ ∧ 47 ∉ Segment.text ⟨name, key, value⟩ := by
  obtain ⟨hName, hNameSlash, hNameOpen, hNameClose⟩ := plainName_iff hName
  obtain ⟨hKey, hKeySlash, hKeyOpen, hKeyClose, hKeyEq⟩ := plainName_spec hKey
  obtain ⟨hValue, hSlash, hOpen, hClose, _⟩ := plainName_spec hValue
  refine ⟨⟨hName, Or.inr ⟨hKey, hValue, hKeyEq, hNameOpen, hNameClose, hKeyOpen, hKeyClose,
    hOpen, hClose⟩⟩, ?_⟩
  rw [Segment.text, if_neg hKey]
  simp [hNameSlash, hKeySlash, hSlash]

/-- The entry of an interface. -/
def interfaceEntry (name : GoString) : List Segment :=
  [bareSegment "interfaces", ⟨"interface", "name", name⟩]

/-- The segments of the node that a publication is about. -/
def nodeSegments : Publication → List Segment
  | .bridgePort port _ _ =>
    [bareSegment "stp", bareSegment "state", bareSegment "ports", ⟨"port", "port", port⟩]
  | .interface port _ _ _ => interfaceEntry port
  | .radioLink name _ _ => interfaceEntry name ++ [bareSegment "radio-link"]
  | .clock _ _ => [bareSegment "ptp", bareSegment "clock"]

theorem pathText_interfaceEntry (name : GoString) :
    pathText (interfaceEntry name) = "interfaces/interface[name=" ++ name ++ "]" := by
  simp only [pathText, join, interfaceEntry, bareSegment, Segment.text, List.map_cons,
    List.map_nil, List.append_assoc, List.intercalate_cons_cons, List.intercalate_singleton]
  rfl

theorem pathText_nodeSegments (publication : Publication) :
    pathText (nodeSegments publication) = publication.node := by
  cases publication with
  | bridgePort port source target =>
    simp only [pathText, join, nodeSegments, bareSegment, Segment.text, Publication.node,
      L2.stpPrefix, List.map_cons, List.map_nil, List.append_assoc, List.intercalate_cons_cons,
      List.intercalate_singleton]
    rfl
  | interface port sum previous storming => exact pathText_interfaceEntry port
  | radioLink name current next =>
    rw [nodeSegments, pathText_append (show interfaceEntry name ≠ [] from List.cons_ne_nil _ _)
      (List.cons_ne_nil _ _), pathText_interfaceEntry, Publication.node]
    simp only [List.append_assoc]
    rfl
  | clock source next => rfl

theorem wellFormed_nodeSegments
    (hPlain : ∀ name, publication.subject = some name → plainName name = true) :
    ∀ segment ∈ nodeSegments publication, segment.WellFormed ∧ 47 ∉ segment.text := by
  have hBare : ∀ name : GoString, Router.plainName name = true →
      (bareSegment name).WellFormed ∧ 47 ∉ (bareSegment name).text :=
    fun name hName => wellFormed_bareSegment hName
  cases publication with
  | bridgePort port source target =>
    have hEntry := wellFormed_entry (show Router.plainName "port" = true by decide)
      (show plainName "port" = true by decide) (hPlain port rfl)
    simp only [nodeSegments, List.forall_mem_cons, List.not_mem_nil, false_imp_iff,
      implies_true, and_true]
    exact ⟨hBare _ (by decide), hBare _ (by decide), hBare _ (by decide), hEntry⟩
  | interface port sum previous storming =>
    have hEntry := wellFormed_entry (show Router.plainName "interface" = true by decide)
      (show plainName "name" = true by decide) (hPlain port rfl)
    simp only [nodeSegments, interfaceEntry, List.forall_mem_cons, List.not_mem_nil,
      false_imp_iff, implies_true, and_true]
    exact ⟨hBare _ (by decide), hEntry⟩
  | radioLink name current next =>
    have hEntry := wellFormed_entry (show Router.plainName "interface" = true by decide)
      (show plainName "name" = true by decide) (hPlain name rfl)
    simp only [nodeSegments, interfaceEntry, List.cons_append, List.nil_append,
      List.forall_mem_cons, List.not_mem_nil, false_imp_iff, implies_true, and_true]
    exact ⟨hBare _ (by decide), hEntry, hBare _ (by decide)⟩
  | clock source next =>
    simp only [nodeSegments, List.forall_mem_cons, List.not_mem_nil, false_imp_iff,
      implies_true, and_true]
    exact ⟨hBare _ (by decide), hBare _ (by decide)⟩

theorem parse_node (hPlain : ∀ name, publication.subject = some name → plainName name = true) :
    parse publication.node = .ok (nodeSegments publication) := by
  rw [← pathText_nodeSegments]
  refine parse_pathText ?_ (wellFormed_nodeSegments hPlain)
  cases publication <;> simp [nodeSegments, interfaceEntry]

/-- A publication is about one node. -/
theorem oneNode_node (hPlain : ∀ name, publication.subject = some name → plainName name = true) :
    OneNode publication.node := by
  have hParse := parse_node hPlain
  cases publication with
  | bridgePort port source target =>
    exact Or.inr ⟨[bareSegment "stp", bareSegment "state", bareSegment "ports"], _, _, _,
      ⟨hParse, rfl, rfl⟩, rfl⟩
  | interface port sum previous storming =>
    exact Or.inr ⟨[bareSegment "interfaces"], _, _, _, ⟨hParse, rfl, rfl⟩, rfl⟩
  | radioLink name current next =>
    exact Or.inr ⟨interfaceEntry name, _, _, _, ⟨hParse, rfl, rfl⟩, rfl⟩
  | clock source next =>
    exact Or.inr ⟨[bareSegment "ptp"], _, _, _, ⟨hParse, rfl, rfl⟩, rfl⟩

end Node

/-! ## Overlap -/

section Overlap

variable {target : GoString} {base rest : List Segment} {outer inner subscription : GoString}

/-- The predicates on the way to a node fit the schema. -/
theorem checkPredicate_of_leads {base' : List Segment} {last segment : Segment}
    {nodes nodes' : List SchemaNode} {child child' : SchemaNode}
    (hLeads : Leads target base' last nodes' child')
    (hParse : parse target = .ok (base ++ segment :: rest)) (hBelow : SchemaBelow base nodes)
    (hChild : childNamed nodes segment.name = some child) :
    checkPredicate segment child.node.kind = .ok () ∨ segment = last ∧ child = child' := by
  have hSame := Except.ok.inj (hParse.symm.trans hLeads.parsed)
  rcases List.eq_nil_or_concat rest with rfl | ⟨init, other, rfl⟩
  · obtain ⟨_, rfl, _, rfl⟩ := hLeads.unique ⟨hParse, hBelow, hChild⟩
    exact Or.inr ⟨rfl, rfl⟩
  · rw [List.concat_eq_append, ← List.cons_append, ← List.append_assoc] at hSame
    obtain ⟨rfl, _⟩ := List.append_inj' hSame rfl
    exact Or.inl (hLeads.below.checkPredicate hBelow hChild)

theorem checkPredicate_of_oneNode {segment : Segment} {nodes : List SchemaNode} {child : SchemaNode}
    (hOne : OneNode target) (hParse : parse target = .ok (base ++ segment :: rest))
    (hBelow : SchemaBelow base nodes) (hChild : childNamed nodes segment.name = some child) :
    checkPredicate segment child.node.kind = .ok () := by
  rcases hOne with rfl | ⟨_, _, _, _, hLeads, hPredicate⟩
  · cases hParse
  · rcases checkPredicate_of_leads hLeads hParse hBelow hChild with hFits | ⟨rfl, rfl⟩
    · exact hFits
    · exact hPredicate

/-- No segment of a path that names a node has a key where there is no list. -/
theorem key_eq_nil_of_namesNode {segment : Segment} {nodes : List SchemaNode} {child : SchemaNode}
    (hNames : NamesNode target) (hParse : parse target = .ok (base ++ segment :: rest))
    (hBelow : SchemaBelow base nodes) (hChild : childNamed nodes segment.name = some child)
    (hNoList : ∀ key, child.node.kind ≠ .list key) : segment.key = [] := by
  rcases hNames with rfl | ⟨_, _, _, _, hLeads, hKey⟩
  · cases hParse
  · rcases checkPredicate_of_leads hLeads hParse hBelow hChild with hFits | ⟨rfl, rfl⟩
    · exact (checkPredicate_inner_iff hNoList).mp hFits
    · exact hKey.resolve_right (hNoList _)

/-- A path that names a node names one node, unless it is a list without a key. -/
theorem oneNode_of_not_wholeList (hNames : NamesNode target) (hPart : ¬ WholeList target) :
    OneNode target := by
  rcases hNames with hRoot | ⟨base, last, nodes, child, hLeads, hKey⟩
  · exact Or.inl hRoot
  · refine Or.inr ⟨base, last, nodes, child, hLeads, ?_⟩
    by_cases hBare : last.key = []
    · exact (checkPredicate_inner_iff fun key hKind =>
        hPart ⟨base, last, nodes, child, key, hLeads, hBare, hKind⟩).mpr hBare
    · rw [hKey.resolve_left hBare]
      exact checkPredicate_list_iff.mpr ⟨hBare, rfl⟩

theorem exists_baseSegments_of_namesNode (hNames : NamesNode target) :
    ∃ segments, baseSegments target = .ok segments := by
  rcases hNames with rfl | ⟨base, last, nodes, child, hLeads, _⟩
  · exact ⟨[], rfl⟩
  · exact ⟨_, baseSegments_of_parse_eq_ok hLeads.parsed⟩

/-- A path below one node extends the path of the node. -/
theorem exists_rest_of_oneNode (hOuter : OneNode outer) (hInner : NamesNode inner)
    (hBelow : AtOrBelow outer inner) :
    ∃ base rest, baseSegments outer = .ok base ∧ baseSegments inner = .ok (base ++ rest) := by
  rcases hOuter with rfl | ⟨base, last, nodes, child, hLeads, hPredicate⟩
  · obtain ⟨segments, hSegments⟩ := exists_baseSegments_of_namesNode hInner
    exact ⟨[], segments, rfl, hSegments⟩
  · obtain ⟨segment, rest, hParse, hName, hKey⟩ := hLeads.atOrBelow_iff.mp hBelow
    have hEqual : segment = last := hLeads.segment_eq hParse hName hKey fun hBare => by
      -- a node that is named without a key is no list, so that the other path has none either
      have hNoList : ∀ key, child.node.kind ≠ .list key := by
        intro key hKind
        rw [hKind] at hPredicate
        exact (checkPredicate_list_iff.mp hPredicate).1 hBare
      exact key_eq_nil_of_namesNode hInner hParse hLeads.below (hName ▸ hLeads.child) hNoList
    rw [hEqual] at hParse
    refine ⟨base ++ [last], rest, baseSegments_of_parse_eq_ok hLeads.parsed, ?_⟩
    simpa using baseSegments_of_parse_eq_ok hParse

theorem parseSegments_of_baseSegments {path : GoString} {segments : List Segment}
    (hBase : baseSegments path = .ok segments) : parseSegments path = some segments := by
  rcases baseSegments_eq_ok hBase with ⟨rfl, rfl⟩ | ⟨hPath, hParse⟩
  · rfl
  · rw [parseSegments, if_neg hPath, hParse]
    rfl

/-- A path that lies on another one overlaps with it, in either order. -/
theorem pathsOverlap_of_baseSegments (hOuter : baseSegments outer = .ok base)
    (hInner : baseSegments inner = .ok (base ++ rest)) :
    pathsOverlap outer inner = true ∧ pathsOverlap inner outer = true := by
  have hLead : isPrefix base (base ++ rest) = true := by
    rw [isPrefix, List.isPrefixOf_iff_prefix]
    exact List.prefix_append base rest
  unfold pathsOverlap
  rw [parseSegments_of_baseSegments hOuter, parseSegments_of_baseSegments hInner]
  simp [hLead]

/-- A list without a key does not overlap with what is below it. -/
theorem not_matchesSubscription_of_wholeList {node : GoString} (hWhole : WholeList subscription)
    (hNode : OneNode node) (hAbove : AtOrBelow subscription node) :
    ¬ matchesSubscription subscription node = true := by
  obtain ⟨base, last, nodes, child, key, hLeads, hBare, hKind⟩ := hWhole
  obtain ⟨segment, rest, hParse, hName, _⟩ := hLeads.atOrBelow_iff.mp hAbove
  have hPredicate := checkPredicate_of_oneNode hNode hParse hLeads.below (hName ▸ hLeads.child)
  rw [hKind] at hPredicate
  have hOther : segment ≠ last := by
    rintro rfl
    exact (checkPredicate_list_iff.mp hPredicate).1 hBare
  unfold matchesSubscription pathsOverlap
  rw [parseSegments_of_baseSegments (baseSegments_of_parse_eq_ok hLeads.parsed),
    parseSegments_of_baseSegments (baseSegments_of_parse_eq_ok hParse)]
  simp only [isPrefix, Bool.or_eq_true, decide_eq_true_eq, List.isPrefixOf_iff_prefix,
    List.prefix_append_right_inj, List.cons_prefix_cons, not_or]
  exact ⟨path_ne_nil_of_parse_eq_ok hParse, fun hSame => hOther hSame.1.symm,
    fun hSame => hOther hSame.1⟩

/-- On the line of a node every subscription matches but a list without a key above it. -/
theorem matchesSubscription_iff {node : GoString} (hNames : NamesNode subscription)
    (hNode : OneNode node) (hLine : AtOrBelow subscription node ∨ AtOrBelow node subscription) :
    matchesSubscription subscription node = true ↔
      ¬ (WholeList subscription ∧ AtOrBelow subscription node) := by
  constructor
  · rintro hMatch ⟨hWhole, hAbove⟩
    exact not_matchesSubscription_of_wholeList hWhole hNode hAbove hMatch
  · intro hPart
    unfold matchesSubscription
    rw [Bool.or_eq_true]
    right
    by_cases hAbove : AtOrBelow subscription node
    · have hOne := oneNode_of_not_wholeList hNames fun hWhole => hPart ⟨hWhole, hAbove⟩
      obtain ⟨base, rest, hOuter, hInner⟩ := exists_rest_of_oneNode hOne hNode.namesNode hAbove
      exact (pathsOverlap_of_baseSegments hOuter hInner).1
    · obtain ⟨base, rest, hOuter, hInner⟩ :=
        exists_rest_of_oneNode hNode hNames (hLine.resolve_left hAbove)
      exact (pathsOverlap_of_baseSegments hOuter hInner).2

/-- Every subscription that matches has its target notified. -/
theorem mem_targetsFor {affected : GoString} {paths notified : List GoString}
    (hMem : subscription ∈ paths) (hMatch : matchesSubscription subscription affected = true) :
    notificationTarget subscription affected ∈ notified ∨
      notificationTarget subscription affected ∈ targetsFor affected notified paths := by
  induction paths generalizing notified with
  | nil => cases hMem
  | cons first rest ih =>
    rw [targetsFor]
    rcases List.mem_cons.mp hMem with rfl | hRest
    · rw [if_pos hMatch]
      dsimp only
      split
      · next hNotified => exact Or.inl hNotified
      · exact Or.inr List.mem_cons_self
    · split
      · dsimp only
        split
        · exact ih hRest
        · have hTail : notificationTarget subscription affected ∈
                notificationTarget first affected :: notified ∨
              notificationTarget subscription affected ∈
                targetsFor affected (notificationTarget first affected :: notified) rest := ih hRest
          rcases hTail with hNotified | hLater
          · rcases List.mem_cons.mp hNotified with hSame | hBefore
            · exact Or.inr (hSame ▸ List.mem_cons_self)
            · exact Or.inl hBefore
          · exact Or.inr (List.mem_cons_of_mem _ hLater)
      · exact ih hRest

end Overlap

/-! ## Events of the domains -/

section Publications

variable {publication : Publication}

/-- The resource that the events of a publication name. -/
def eventResource : Publication → GoString
  | .bridgePort port _ _ => "l2/stp/" ++ port
  | .interface port _ _ _ => "l2/storm/" ++ port
  | .radioLink name _ _ => name
  | .clock _ _ => "ptp/clock"

theorem resource_of_mem_events {event : Events.Event} (hEvent : event ∈ publication.events) :
    event.resource = eventResource publication ∧ event.type ≠ .configChanged := by
  cases publication with
  | bridgePort port source target =>
    rw [List.mem_singleton.mp hEvent]
    exact ⟨rfl, by simp [L2.transitionEvent]⟩
  | interface port sum previous storming =>
    simp only [Publication.events, L2.reportStorm] at hEvent
    split at hEvent
    · cases hEvent
    · split at hEvent
      · rw [List.mem_singleton.mp hEvent]
        exact ⟨rfl, by simp⟩
      · rw [List.mem_singleton.mp hEvent]
        exact ⟨rfl, by simp⟩
  | radioLink name current next =>
    rcases List.mem_append.mp hEvent with hCleared | hRaised
    · obtain ⟨alarm, _, rfl⟩ := List.mem_map.mp hCleared
      exact ⟨rfl, by simp⟩
    · obtain ⟨alarm, _, rfl⟩ := List.mem_map.mp hRaised
      exact ⟨rfl, by simp⟩
  | clock source next =>
    rcases List.mem_cons.mp hEvent with rfl | hAlarm
    · exact ⟨rfl, by simp⟩
    · split at hAlarm
      · rw [List.mem_singleton.mp hAlarm]
        exact ⟨rfl, by simp⟩
      · split at hAlarm
        · rw [List.mem_singleton.mp hAlarm]
          exact ⟨rfl, by simp⟩
        · cases hAlarm

/-- The first byte of a resource tells the domains apart. -/
theorem ne_of_first {first second : UInt8} {a b : GoString} (hFirst : first ≠ second) :
    first :: a ≠ second :: b :=
  fun hSame => hFirst (List.cons.inj hSame).1

theorem affectedPaths_bridgePort {event : Events.Event} {port : GoString}
    (hType : event.type ≠ .configChanged) (hResource : event.resource = "l2/stp/" ++ port) :
    affectedPaths event = portPath port "stp/state/ports/port" := by
  have hTrim : trimLead ("l2/stp/" ++ port) "l2/stp/" = port := by
    simp [trimLead, hasPrefix]
  have hLead : hasPrefix (text "l2/stp/" ++ port) "l2/stp/" = true := rfl
  have hSome : text "l2/stp/" ++ port ≠ [] := List.cons_ne_nil _ _
  have hClock : text "l2/stp/" ++ port ≠ text "ptp/clock" := ne_of_first (by decide)
  rw [affectedPaths, if_neg hType, hResource, if_neg hSome, if_neg hClock, if_pos hLead,
    hTrim]

theorem affectedPaths_interface {event : Events.Event} {port : GoString}
    (hType : event.type ≠ .configChanged) (hResource : event.resource = "l2/storm/" ++ port) :
    affectedPaths event = portPath port "interfaces/interface" := by
  have hTrim : trimLead ("l2/storm/" ++ port) "l2/storm/" = port := by
    simp [trimLead, hasPrefix]
  have hOther : ¬ hasPrefix (text "l2/storm/" ++ port) "l2/stp/" = true := Bool.false_ne_true
  have hLead : hasPrefix (text "l2/storm/" ++ port) "l2/storm/" = true := rfl
  have hSome : text "l2/storm/" ++ port ≠ [] := List.cons_ne_nil _ _
  have hClock : text "l2/storm/" ++ port ≠ text "ptp/clock" := ne_of_first (by decide)
  rw [affectedPaths, if_neg hType, hResource, if_neg hSome, if_neg hClock, if_neg hOther,
    if_pos hLead, hTrim]

/-- The event of a radio link affects its node exactly if the name of the link is plain. -/
theorem affectedPaths_radioLink_iff {event : Events.Event} {name : GoString}
    (hType : event.type ≠ .configChanged) (hResource : event.resource = name) :
    affectedPaths event = ["interfaces/interface[name=" ++ name ++ "]/radio-link"] ↔
      plainName name = true := by
  rw [affectedPaths, if_neg hType, hResource]
  constructor
  · intro hPaths
    by_contra hPlain
    split at hPaths
    · cases hPaths
    · split at hPaths
      · exact ne_of_first (by decide) (List.cons.inj hPaths).1
      · split at hPaths
        · unfold portPath at hPaths
          split at hPaths
          · exact ne_of_first (by decide) (List.cons.inj hPaths).1
          · cases hPaths
        · split at hPaths
          · unfold portPath at hPaths
            split at hPaths
            · -- the entry of an interface ends in its predicate
              have hLast := congrArg List.getLast? (List.cons.inj hPaths).1
              rw [List.getLast?_append_of_ne_nil _ (show text "]" ≠ [] from List.cons_ne_nil _ _),
                List.getLast?_append_of_ne_nil _
                  (show text "]/radio-link" ≠ [] from List.cons_ne_nil _ _)] at hLast
              exact absurd hLast (by decide)
            · cases hPaths
          · cases hPaths
  · intro hPlain
    obtain ⟨hSome, hSlash, _⟩ := plainName_spec hPlain
    have hClock : name ≠ text "ptp/clock" := by
      rintro rfl
      exact hSlash (by decide)
    have hOther : ∀ lead : GoString, 47 ∈ lead → ¬ hasPrefix name lead = true := by
      intro lead hLead hPrefix
      exact hSlash ((List.isPrefixOf_iff_prefix.mp hPrefix).subset hLead)
    rw [if_neg hSome, if_neg hClock, if_neg (hOther _ (by decide)), if_neg (hOther _ (by decide)),
      if_pos hPlain]

/-- The affected path of an event is that of its node exactly if the event is not about a bridge
port and its subject has a plain name. -/
theorem affectedPaths_eq_node_iff {event : Events.Event} (hEvent : event ∈ publication.events) :
    affectedPaths event = [publication.node] ↔
      (∀ port source target, publication ≠ .bridgePort port source target) ∧
        ∀ name, publication.subject = some name → plainName name = true := by
  obtain ⟨hResource, hType⟩ := resource_of_mem_events hEvent
  cases publication with
  | bridgePort port source target =>
    rw [affectedPaths_bridgePort hType hResource]
    refine ⟨fun hPaths => ?_, fun hBoth => absurd rfl (hBoth.1 port source target)⟩
    unfold portPath at hPaths
    split at hPaths
    · -- the keys differ in their first byte
      have hByte := congrArg (fun path => path[21]?) (List.cons.inj hPaths).1
      cases hByte
    · cases hPaths
  | interface port sum previous storming =>
    rw [affectedPaths_interface hType hResource]
    simp only [Publication.subject, Option.some.injEq, forall_eq', ne_eq, reduceCtorEq,
      not_false_eq_true, implies_true, true_and, portPath]
    split
    · next hPlain => exact ⟨fun _ => hPlain, fun _ => rfl⟩
    · next hPlain => exact ⟨fun hPaths => (by cases hPaths), fun hName => absurd hName hPlain⟩
  | radioLink name current next =>
    have hIff := affectedPaths_radioLink_iff hType (show event.resource = name from hResource)
    simpa [Publication.subject, Publication.node] using hIff
  | clock source next =>
    rw [affectedPaths, if_neg hType, show event.resource = "ptp/clock" from hResource,
      if_neg (by decide), if_pos rfl]
    simp [Publication.subject, Publication.node]

/-- A path that goes on below a node. -/
theorem atOrBelow_append {node tail : GoString} {segments rest : List Segment}
    (hNode : parse node = .ok segments) (hTail : parse tail = .ok rest) :
    AtOrBelow node (node ++ 47 :: tail) := by
  have hPath : parse (node ++ 47 :: tail) = .ok (segments ++ rest) :=
    parse_append_slash.mpr ⟨segments, rest, hNode, hTail, rfl⟩
  rcases List.eq_nil_or_concat segments with rfl | ⟨base, last, rfl⟩
  · exact absurd rfl (ne_nil_of_parse_eq_ok hNode)
  · rw [List.concat_eq_append] at hNode hPath
    refine Or.inr ⟨base, last, last, rest, hNode, ?_, rfl, Or.inr rfl⟩
    rw [hPath, List.append_assoc]
    rfl

/-- The written leaves belong to the node. -/
theorem writes_below_node
    (hPlain : ∀ name, publication.subject = some name → plainName name = true) :
    ∀ path ∈ publication.writes, AtOrBelow publication.node path := by
  have hNode := parse_node hPlain
  have hEach : ∀ path ∈ publication.writes, ∃ tail rest,
      path = publication.node ++ 47 :: tail ∧ parse tail = .ok rest := by
    cases publication with
    | bridgePort port source target =>
      intro path hPath
      rcases List.mem_pair.mp hPath with rfl | rfl
      · refine ⟨"role", _, ?_, rfl⟩
        simp only [L2.stpPortPath, Publication.node, List.append_assoc]
        rfl
      · refine ⟨"state", _, ?_, rfl⟩
        simp only [L2.stpPortPath, Publication.node, List.append_assoc]
        rfl
    | interface port sum previous storming =>
      intro path hPath
      obtain ⟨field, hField, rfl⟩ := List.mem_map.mp hPath
      have hParse : ∃ rest, parse ("counters/" ++ field.1) = .ok rest := by
        simp only [L2.counterFields, List.mem_cons, List.not_mem_nil, or_false] at hField
        rcases hField with rfl | rfl | rfl | rfl | rfl | rfl | rfl | rfl <;> exact ⟨_, rfl⟩
      obtain ⟨rest, hRest⟩ := hParse
      refine ⟨"counters/" ++ field.1, rest, ?_, hRest⟩
      simp only [L2.counterPath, Publication.node, List.append_assoc]
      rfl
    | radioLink name current next =>
      intro path hPath
      rw [List.mem_singleton.mp hPath]
      refine ⟨"link-state", _, ?_, rfl⟩
      simp only [Radio.linkPath, Publication.node, List.append_assoc]
      rfl
    | clock source next =>
      intro path hPath
      rw [List.mem_singleton.mp hPath]
      exact ⟨"state", _, rfl, rfl⟩
  intro path hPath
  obtain ⟨tail, rest, rfl, hTail⟩ := hEach path hPath
  exact atOrBelow_append hNode hTail

variable {json : Json}

/-- What is sent for a node is about stored leaves exactly if the leaves of the node can be
rendered. -/
theorem notification_carries_stored_iff {opts : Options} {r : Router} {target : GoString}
    {encoding : Encoding} {machine : Machine json} {results : Std.ExtTreeMap GoString Result}
    (hResults : r.describeAll machine.memory.running = .ok results)
    (hStored : ∀ path ∈ machine.memory.running, OnSchema path) (hNames : NamesNode target)
    (env : Nat → CallEnv) (hLive : ∀ index, (env index).ctx = none) :
    (∃ found, ((notification r json target .all encoding).run opts env machine).1 = .ok found ∧
        ∀ sent ∈ found, ∀ update ∈ sent.update, ∃ path leaf,
          machine.memory.running[path]? = some leaf ∧
          routerPath (some ⟨[], sent.lead.elem ++ update.path.elem, []⟩) = .ok path) ↔
      Renders json results .all target := by
  have hRegular := regular_of_describeAll hResults hStored
  obtain ⟨node, hRead, hLists⟩ := readNode_lists .all hRegular hNames
  have hRun : ((notification r json target .all encoding).run opts env machine).1 =
      notificationOf json target encoding node := by
    have hAnswer := (Prog.LiveEnsures.run
      (@ensures_live_notification _ opts _ _ _ hResults target .all encoding) env hLive).2
    rw [hRead] at hAnswer
    exact hAnswer
  rw [hRun]
  constructor
  · rintro ⟨found, hFound, _⟩
    exact renders_of_notificationOf_eq_ok hRegular hLists hFound
  · intro hRenders
    obtain ⟨found, hFound, hAnswers⟩ :=
      notificationOf_answers encoding hRegular hNames hRenders hLists
    refine ⟨found, hFound, fun sent hSent => ?_⟩
    cases hSent
    exact stored_of_answers hResults hAnswers

/-- An event of a domain about a port, an interface or a link with a plain name, or about the
clock, is about one node of the schema, which the leaves written before it are at or below.  For
every event and every subscription on the line of that node: the affected path is that of the
node, the subscription matches, its target is notified and the notification is about stored
leaves exactly if the event is not about a bridge port, the name is plain, the subscription is no
list without a key above the node, and the leaves of its target can be rendered. -/
theorem events_reach_subscriptions_iff (publication : Publication) (event : Events.Event)
    (hEvent : event ∈ publication.events) (opts : Options) (r : Router) (encoding : Encoding)
    (machine : Machine json) (results : Std.ExtTreeMap GoString Result)
    (hResults : r.describeAll machine.memory.running = .ok results)
    (hStored : ∀ path ∈ machine.memory.running, OnSchema path)
    (env : Nat → CallEnv) (hLive : ∀ index, (env index).ctx = none)
    (paths : List GoString) (subscription : GoString) (hMem : subscription ∈ paths)
    (hNames : NamesNode subscription)
    (hLine : AtOrBelow subscription publication.node ∨ AtOrBelow publication.node subscription) :
    ((∀ name, publication.subject = some name → plainName name = true) →
      OneNode publication.node ∧
        ∀ path ∈ publication.writes, AtOrBelow publication.node path) ∧
    ((affectedPaths event = [publication.node] ∧
        matchesSubscription subscription publication.node = true ∧
        notificationTarget subscription publication.node ∈ eventTargets paths event ∧
        ∃ found, ((notification r json (notificationTarget subscription publication.node) .all
            encoding).run opts env machine).1 = .ok found ∧
          ∀ sent ∈ found, ∀ update ∈ sent.update, ∃ path leaf,
            machine.memory.running[path]? = some leaf ∧
            routerPath (some ⟨[], sent.lead.elem ++ update.path.elem, []⟩) = .ok path) ↔
      (∀ port source target, publication ≠ .bridgePort port source target) ∧
        (∀ name, publication.subject = some name → plainName name = true) ∧
        ¬ (WholeList subscription ∧ AtOrBelow subscription publication.node) ∧
        Renders json results .all (notificationTarget subscription publication.node)) := by
  refine ⟨fun hPlain => ⟨oneNode_node hPlain, writes_below_node hPlain⟩, ?_⟩
  have hTarget : OneNode publication.node →
      NamesNode (notificationTarget subscription publication.node) := by
    intro hNode
    unfold notificationTarget
    split
    · exact hNode.namesNode
    · exact hNames
  constructor
  · rintro ⟨hAffected, hMatch, _, hSent⟩
    obtain ⟨hPort, hPlain⟩ := (affectedPaths_eq_node_iff hEvent).mp hAffected
    have hNode := oneNode_node hPlain
    exact ⟨hPort, hPlain, (matchesSubscription_iff hNames hNode hLine).mp hMatch,
      (notification_carries_stored_iff hResults hStored (hTarget hNode) env hLive).mp hSent⟩
  · rintro ⟨hPort, hPlain, hPart, hRenders⟩
    have hNode := oneNode_node hPlain
    have hAffected := (affectedPaths_eq_node_iff hEvent).mpr ⟨hPort, hPlain⟩
    have hMatch := (matchesSubscription_iff hNames hNode hLine).mpr hPart
    refine ⟨hAffected, hMatch, ?_,
      (notification_carries_stored_iff hResults hStored (hTarget hNode) env hLive).mpr hRenders⟩
    rw [eventTargets, hAffected, List.flatMap_singleton]
    exact (mem_targetsFor hMem hMatch).resolve_left List.not_mem_nil

/-- The entry of the interface `radio0`. -/
def radioPath : GoString := "interfaces/interface[name=radio0]"

/-- A device whose one stored leaf is the state of the radio link. -/
def linkContent : Values :=
  (∅ : Values).insert "interfaces/interface[name=radio0]/radio-link/link-state" (.string "down")

theorem radio_event_reaches_interface :
    ∃ event ∈ (Publication.radioLink "radio0" "up" "down").events,
      affectedPaths event = [radioPath ++ "/radio-link"] ∧
        radioPath ∈ eventTargets [radioPath] event := by
  refine ⟨_, List.mem_cons_self, ?_⟩
  obtain ⟨results, hResults⟩ := exists_eq_ok_of_isOk
    (show (defaultRouter.describeAll linkContent).isOk = true by decide +kernel)
  have hLeads : Leads radioPath [bareSegment "interfaces"] ⟨"interface", "name", "radio0"⟩ _ _ :=
    ⟨rfl, rfl, rfl⟩
  have hPart : ¬ WholeList radioPath := by
    rintro ⟨_, _, _, _, _, hOther, hBare, _⟩
    obtain ⟨_, rfl, _⟩ := hLeads.unique hOther
    cases hBare
  have hRenders : Renders Json.plain results .all radioPath := by
    refine ⟨fun hWhole => absurd hWhole hPart, fun path leaf _ hShown => ?_⟩
    obtain ⟨_, rfl⟩ := eq_of_getElem?_single (stored_of_shown hResults hShown)
    exact ⟨_, rfl⟩
  have hReach := (events_reach_subscriptions_iff (Publication.radioLink "radio0" "up" "down") _
    List.mem_cons_self (defaultRouter.options []) defaultRouter .json
    (machineWith linkContent) results hResults
    (onSchema_of_mem_single (by decide +kernel)) (fun _ => CallEnv.quiet) (fun _ => rfl)
    [radioPath] radioPath List.mem_cons_self (Or.inr ⟨_, _, _, _, hLeads, Or.inr rfl⟩)
    (Or.inl (hLeads.atOrBelow_iff.mpr ⟨_, [bareSegment "radio-link"], rfl, rfl, Or.inr rfl⟩))).2
  obtain ⟨hAffected, _, hTarget, _⟩ := hReach.mpr ⟨by simp, (by rintro name ⟨⟩; decide),
    fun hBoth => hPart hBoth.1, hRenders⟩
  exact ⟨hAffected, hTarget⟩

/-- A device whose one stored leaf is the phase of a bridge port. -/
def portContent : Values :=
  (∅ : Values).insert "stp/state/ports/port[port=eth0]/state" (.string "forwarding")

/-- The event of a bridge port is mapped to an entry under a key that the list does not have.
A subscription to the port is not notified, and what a subscription to the root is sent joins
to a path that no leaf has. -/
theorem port_event_misses_port :
    let publication := Publication.bridgePort "eth0" "discarding" "forwarding"
    let foreign : GoString := "stp/state/ports/port[name=eth0]"
    publication.events.map affectedPaths = [[foreign]] ∧
      publication.node = "stp/state/ports/port[port=eth0]" ∧
      matchesSubscription publication.node foreign = false ∧
      publication.events.map (eventTargets [publication.node]) = [[]] ∧
      publication.events.map (eventTargets [[]]) = [[foreign]] ∧
      ((notification defaultRouter Json.plain foreign .all .json).run (defaultRouter.options [])
        (fun _ => CallEnv.quiet) (machineWith portContent)).1.toOption.join.map (fun found =>
          found.update.map fun update =>
            (routerPath (some ⟨[], found.lead.elem ++ update.path.elem, []⟩)).toOption) =
        some [some (foreign ++ "/" ++ publication.node ++ "/state")] := by
  decide +kernel

end Publications

end Gnmi
end TriadSim
