import OtelLogger.Sink
import OtelLogger.ProxySettings

/-!
Dividing a record among the routes by `service.name`. A lane finds its own index again from the
names of its route, so the division rests on what the settings were checked for.
-/

namespace OtelLogger

open Std (ExtTreeMap TransOrd LawfulEqOrd)

def Call.signal : TelemetryRecord → ProxySignal
  | .logs _ => .logs
  | .traces _ => .traces
  | .metrics _ => .metrics

def Call.resources : TelemetryRecord → List (Option Resource)
  | .logs req => req.resourceLogs.map ResourceLogs.resource
  | .traces req => req.resourceSpans.map ResourceSpans.resource
  | .metrics req => req.resourceMetrics.map ResourceMetrics.resource

inductive ExportRequest where
  | logs (req : ExportLogsServiceRequest)
  | traces (req : ExportTraceServiceRequest)
  | metrics (req : ExportMetricsServiceRequest)

def ExportRequest.isEmpty : ExportRequest → Bool
  | .logs req => req.resourceLogs.isEmpty
  | .traces req => req.resourceSpans.isEmpty
  | .metrics req => req.resourceMetrics.isEmpty

/-- A route with its name; its channel and its counters belong to its worker. -/
structure RouteLane where
  name : String
  route : ProxyRoute

def RouteLane.ofRoute (route : ProxyRoute) : RouteLane where
  name := route.name
  route := route

structure ProxyRouter where
  lanes : List RouteLane
  matcher : ExtTreeMap String ℕ

def extractServiceName (resource : Option Resource) : String :=
  match resource with
  | none => ""
  | some r =>
      match attrValue r.attributes "service.name" with
      | some (.stringValue text) => text
      | _ => ""

/-- The index of a route, from the first of its names that is registered. -/
def laneIndex (matcher : ExtTreeMap String ℕ) (route : ProxyRoute) : ℕ :=
  (route.serviceNames.filterMap fun name => matcher[name]?).head?.getD usizeMax

def serviceNameMatchesLane (resource : Option Resource) (matcher : ExtTreeMap String ℕ)
    (_firstTargetIdx : ℕ) (lane : RouteLane) : Bool :=
  match matcher[extractServiceName resource]? with
  | some idx => idx = laneIndex matcher lane.route
  | none => false

def filterResources {ρ : Type} (resource : ρ → Option Resource) (items : List ρ)
    (matcher : ExtTreeMap String ℕ) (lane : RouteLane) : Option (List ρ) :=
  lane.route.serviceNames.head?.bind fun first =>
    let targetIdx := matcher[first]?.getD usizeMax
    let kept := items.filter fun item =>
      serviceNameMatchesLane (resource item) matcher targetIdx lane
    if kept.isEmpty then none else some kept

def filterLogs (req : ExportLogsServiceRequest) (matcher : ExtTreeMap String ℕ)
    (lane : RouteLane) : Option ExportRequest :=
  (filterResources ResourceLogs.resource req.resourceLogs matcher lane).map fun kept =>
    .logs { resourceLogs := kept }

def filterTraces (req : ExportTraceServiceRequest) (matcher : ExtTreeMap String ℕ)
    (lane : RouteLane) : Option ExportRequest :=
  (filterResources ResourceSpans.resource req.resourceSpans matcher lane).map fun kept =>
    .traces { resourceSpans := kept }

def filterMetrics (req : ExportMetricsServiceRequest) (matcher : ExtTreeMap String ℕ)
    (lane : RouteLane) : Option ExportRequest :=
  (filterResources ResourceMetrics.resource req.resourceMetrics matcher lane).map fun kept =>
    .metrics { resourceMetrics := kept }

namespace ProxyRouter

def new (lanes : List RouteLane) : ProxyRouter where
  lanes := lanes
  matcher := lanes.zipIdx.foldl (fun matcher entry =>
    entry.1.route.serviceNames.foldl (fun matcher name => matcher.insert name entry.2) matcher) ∅

def ofSettings (settings : ProxySettings) : ProxyRouter :=
  new (settings.routes.map RouteLane.ofRoute)

def laneRequest (router : ProxyRouter) (record : TelemetryRecord) (lane : RouteLane) :
    Option ExportRequest :=
  if lane.route.acceptsSignal record.signal then
    match record with
    | .logs req => filterLogs req router.matcher lane
    | .traces req => filterTraces req router.matcher lane
    | .metrics req => filterMetrics req router.matcher lane
  else none

def offers (router : ProxyRouter) (record : TelemetryRecord) : List (Option ExportRequest) :=
  router.lanes.map (router.laneRequest record)

end ProxyRouter

/-! ### The index of a name -/

namespace ProxyRouter

variable {lanes : List RouteLane} {lane : RouteLane} {index : ℕ} {name : String}

theorem insert_names (names : List String) (matcher : ExtTreeMap String ℕ) (index : ℕ)
    (name : String) :
    (names.foldl (fun matcher name => matcher.insert name index) matcher)[name]? =
      if name ∈ names then some index else matcher[name]? := by
  induction names generalizing matcher with
  | nil => simp
  | cons first names ih =>
      rw [List.foldl_cons, ih, ExtTreeMap.getElem?_insert]
      simp only [Std.compare_eq_iff_eq, List.mem_cons]
      by_cases listed : name ∈ names
      · simp [listed]
      · by_cases same : first = name
        · simp [same]
        · simp [listed, same, Ne.symm same]

theorem matcher_iff (once : (lanes.flatMap fun lane => lane.route.serviceNames).Nodup) :
    (new lanes).matcher[name]? = some index ↔
      ∃ lane, lanes[index]? = some lane ∧ name ∈ lane.route.serviceNames := by
  induction lanes using List.reverseRecOn generalizing index with
  | nil => simp [new]
  | append_singleton lanes lane ih =>
      rw [List.flatMap_append, List.nodup_append] at once
      obtain ⟨before, _, apart⟩ := once
      have built : (new (lanes ++ [lane])).matcher = lane.route.serviceNames.foldl
          (fun matcher name => matcher.insert name lanes.length) (new lanes).matcher := by
        simp [new, List.zipIdx_append]
      rw [built, insert_names]
      by_cases listed : name ∈ lane.route.serviceNames
      · rw [if_pos listed]
        constructor
        · rintro same
          obtain rfl := Option.some.inj same
          exact ⟨lane, by simp, listed⟩
        · rintro ⟨other, found, also⟩
          rcases Nat.lt_trichotomy index lanes.length with below | rfl | above
          · rw [List.getElem?_append_left below] at found
            have first : name ∈ lanes.flatMap fun lane => lane.route.serviceNames :=
              List.mem_flatMap.mpr ⟨other, List.mem_of_getElem? found, also⟩
            exact absurd rfl (apart name first name (by simpa using listed))
          · rfl
          · rw [List.getElem?_eq_none (by simp; omega)] at found
            cases found
      · rw [if_neg listed, ih before]
        constructor
        · rintro ⟨other, found, also⟩
          refine ⟨other, ?_, also⟩
          rw [List.getElem?_append_left (List.getElem?_eq_some_iff.mp found).1, found]
        · rintro ⟨other, found, also⟩
          rw [List.getElem?_append] at found
          split at found
          · exact ⟨other, found, also⟩
          · obtain rfl := List.mem_singleton.mp (List.mem_of_getElem? found)
            exact absurd also listed

theorem laneIndex_eq (once : (lanes.flatMap fun lane => lane.route.serviceNames).Nodup)
    (found : lanes[index]? = some lane) (listed : lane.route.serviceNames ≠ []) :
    laneIndex (new lanes).matcher lane.route = index := by
  obtain ⟨first, rest, names⟩ := List.exists_cons_of_ne_nil listed
  have registered : (new lanes).matcher[first]? = some index :=
    (matcher_iff once).mpr ⟨lane, found, names ▸ List.mem_cons_self⟩
  simp [laneIndex, names, registered]

theorem matchesLane_iff (once : (lanes.flatMap fun lane => lane.route.serviceNames).Nodup)
    (found : lanes[index]? = some lane) (listed : lane.route.serviceNames ≠ [])
    (resource : Option Resource) (firstTargetIdx : ℕ) :
    serviceNameMatchesLane resource (new lanes).matcher firstTargetIdx lane = true ↔
      extractServiceName resource ∈ lane.route.serviceNames := by
  rw [serviceNameMatchesLane, laneIndex_eq once found listed]
  constructor
  · intro matched
    split at matched
    · rename_i other registered
      obtain rfl := of_decide_eq_true matched
      obtain ⟨owner, same, member⟩ := (matcher_iff once).mp registered
      rwa [Option.some.inj (found.symm.trans same)]
    · cases matched
  · intro member
    rw [(matcher_iff once).mpr ⟨lane, found, member⟩]
    exact decide_eq_true rfl

end ProxyRouter

/-! ### The division of a record -/

/-- The first attribute with the key `service.name` has this string. -/
def ServiceNamed (resource : Option Resource) (name : String) : Prop :=
  ∃ r before after, resource = some r ∧
    r.attributes = before ++
      { key := "service.name", value := some { value := some (.stringValue name) } } :: after ∧
    ∀ kv ∈ before, kv.key ≠ "service.name"

/-- The route lists the service name of the resource. -/
def ProxyRoute.listsService (route : ProxyRoute) (resource : Option Resource) : Bool :=
  route.serviceNames.contains (extractServiceName resource)

/-- The record with the chosen resources only. -/
def Call.restrict (record : TelemetryRecord) (chosen : Option Resource → Bool) : ExportRequest :=
  match record with
  | .logs req => .logs { resourceLogs := req.resourceLogs.filter fun item => chosen item.resource }
  | .traces req =>
      .traces { resourceSpans := req.resourceSpans.filter fun item => chosen item.resource }
  | .metrics req =>
      .metrics { resourceMetrics := req.resourceMetrics.filter fun item => chosen item.resource }

theorem extractServiceName_iff {resource : Option Resource} {name : String} (named : name ≠ "") :
    extractServiceName resource = name ↔ ServiceNamed resource name := by
  constructor
  · intro extracted
    cases resource with
    | none => exact absurd extracted.symm named
    | some r =>
        simp only [extractServiceName] at extracted
        split at extracted
        · rename_i text found
          subst extracted
          obtain ⟨⟨key, value⟩, first, held⟩ := Option.bind_eq_some_iff.mp found
          obtain ⟨⟨content⟩, rfl, rfl⟩ := Option.bind_eq_some_iff.mp held
          obtain ⟨same, before, after, split, others⟩ := List.find?_eq_some_iff_append.mp first
          obtain rfl := of_decide_eq_true same
          exact ⟨r, before, after, rfl, split, fun kv member => by simpa using others kv member⟩
        · exact absurd extracted.symm named
  · rintro ⟨r, before, after, rfl, split, others⟩
    have found : attrValue r.attributes "service.name" = some (.stringValue name) := by
      have skipped : before.find? (fun kv => kv.key = "service.name") = none := by
        simpa [List.find?_eq_none] using others
      simp [attrValue, split, List.find?_append, skipped]
    simp [extractServiceName, found]

theorem ProxyRoute.listsService_iff {route : ProxyRoute} {resource : Option Resource}
    (named : "" ∉ route.serviceNames) :
    route.listsService resource = true ↔ ∃ name ∈ route.serviceNames, ServiceNamed resource name := by
  rw [listsService, List.contains_iff_mem]
  constructor
  · intro member
    refine ⟨_, member, (extractServiceName_iff ?_).mp rfl⟩
    exact fun empty => named (empty ▸ member)
  · rintro ⟨name, member, own⟩
    rwa [(extractServiceName_iff fun empty => named (empty ▸ member)).mpr own]

theorem filterResources_eq {ρ : Type} {resource : ρ → Option Resource} {items : List ρ}
    {matcher : ExtTreeMap String ℕ} {lane : RouteLane} (listed : lane.route.serviceNames ≠ [])
    (matched : ∀ resource target, serviceNameMatchesLane resource matcher target lane =
      lane.route.listsService resource) :
    filterResources resource items matcher lane =
      if ∃ item ∈ items, lane.route.listsService (resource item) = true then
        some (items.filter fun item => lane.route.listsService (resource item))
      else none := by
  obtain ⟨first, rest, names⟩ := List.exists_cons_of_ne_nil listed
  have reached : lane.route.serviceNames.head? = some first := by rw [names, List.head?_cons]
  simp only [filterResources, reached, Option.bind_some, matched, List.isEmpty_iff]
  by_cases any : ∃ item ∈ items, lane.route.listsService (resource item) = true
  · rw [if_pos any, if_neg]
    intro none
    obtain ⟨item, member, lists⟩ := any
    exact List.filter_eq_nil_iff.mp none item member lists
  · rw [if_neg any, if_pos]
    exact List.filter_eq_nil_iff.mpr fun item member lists => any ⟨item, member, lists⟩

namespace ProxyRouter

theorem laneRequest_eq {router : ProxyRouter} {lane : RouteLane}
    (listed : lane.route.serviceNames ≠ [])
    (matched : ∀ resource target, serviceNameMatchesLane resource router.matcher target lane =
      lane.route.listsService resource) (record : TelemetryRecord) :
    router.laneRequest record lane =
      if lane.route.acceptsSignal record.signal = true ∧
          ∃ resource ∈ record.resources, lane.route.listsService resource = true then
        some (record.restrict lane.route.listsService)
      else none := by
  by_cases accepts : lane.route.acceptsSignal record.signal = true
  · cases record with
    | logs req | traces req | metrics req =>
        simp only [laneRequest, accepts, filterLogs, filterTraces, filterMetrics,
          filterResources_eq listed matched, Call.resources, Call.restrict, List.mem_map,
          exists_exists_and_eq_and, true_and, if_true, apply_ite (Option.map _), Option.map_some,
          Option.map_none]
  · cases record <;> simp [laneRequest, accepts]

theorem laneRequest_nonEmpty {router : ProxyRouter} {lane : RouteLane} {record : TelemetryRecord}
    {request : ExportRequest} (sent : router.laneRequest record lane = some request) :
    request.isEmpty = false := by
  have kept {ρ : Type} {resource : ρ → Option Resource} {items chosen : List ρ}
      (found : filterResources resource items router.matcher lane = some chosen) :
      chosen.isEmpty = false := by
    obtain ⟨first, _, found⟩ := Option.bind_eq_some_iff.mp found
    obtain ⟨some, found⟩ := Option.ite_none_left_eq_some.mp found
    cases found
    exact Bool.eq_false_iff.mpr some
  obtain ⟨_, sent⟩ := Option.ite_none_right_eq_some.mp sent
  cases record with
  | logs req | traces req | metrics req =>
      obtain ⟨chosen, found, rfl⟩ := Option.map_eq_some_iff.mp sent
      exact kept found

/-- The routes of accepted settings divide a record: a lane is sent exactly the resources that
name one of its services, in their order, and no resource is for two lanes or names nothing. -/
theorem routing_partition {environment : String → Except VarError String} {cli : ProxyCliInputs}
    {config : Option ProxyConfig} {logSink : Option LogSink} {settings : ProxySettings}
    (resolved : resolveProxySettings environment cli config logSink = .ok (some settings))
    (record : TelemetryRecord) :
    (ofSettings settings).offers record = settings.routes.map (fun route =>
      if route.acceptsSignal record.signal = true ∧
          ∃ resource ∈ record.resources, route.listsService resource = true then
        some (record.restrict route.listsService)
      else none) ∧
    (∀ route ∈ settings.routes, ∀ resource, route.listsService resource = true ↔
      ∃ name ∈ route.serviceNames, ServiceNamed resource name) ∧
    (∀ resource (first second : ℕ) (here there : ProxyRoute),
      settings.routes[first]? = some here → settings.routes[second]? = some there →
      here.listsService resource = true → there.listsService resource = true →
      first = second) ∧
    (∀ route ∈ settings.routes, ∀ resource, route.listsService resource = true →
      ∃ name, name ≠ "" ∧ ServiceNamed resource name) := by
  have wellNamed := resolveProxySettings_wellNamed resolved
  have once : ((settings.routes.map RouteLane.ofRoute).flatMap
      fun lane => lane.route.serviceNames).Nodup := by
    rw [List.flatMap_map]
    exact wellNamed.once
  have named (route : ProxyRoute) (member : route ∈ settings.routes) :
      "" ∉ route.serviceNames :=
    fun empty => wellNamed.named (List.mem_flatMap.mpr ⟨route, member, empty⟩)
  refine ⟨?_, ?_, ?_, ?_⟩
  · rw [offers, ofSettings, new, List.map_map]
    refine List.map_congr_left fun route member => ?_
    obtain ⟨index, found⟩ := List.mem_iff_getElem?.mp member
    refine laneRequest_eq (wellNamed.claims route member) ?_ record
    intro resource target
    rw [Bool.eq_iff_iff, ProxyRoute.listsService, List.contains_iff_mem]
    exact matchesLane_iff once (by rw [List.getElem?_map, found]; rfl)
      (wellNamed.claims route member) resource target
  · exact fun route member resource => ProxyRoute.listsService_iff (named route member)
  · intro resource first second here there foundFirst foundSecond listsFirst listsSecond
    rw [ProxyRoute.listsService, List.contains_iff_mem] at listsFirst listsSecond
    have own := (matcher_iff once).mpr
      ⟨RouteLane.ofRoute here, by rw [List.getElem?_map, foundFirst]; rfl, listsFirst⟩
    have other := (matcher_iff once).mpr
      ⟨RouteLane.ofRoute there, by rw [List.getElem?_map, foundSecond]; rfl, listsSecond⟩
    exact Option.some.inj (own.symm.trans other)
  · intro route member resource lists
    obtain ⟨name, listed, own⟩ := (ProxyRoute.listsService_iff (named route member)).mp lists
    exact ⟨name, fun empty => named route member (empty ▸ listed), own⟩

def serviceLogs (service : String) : ResourceLogs where
  resource := some { attributes := [
    { key := "service.name", value := some { value := some (.stringValue service) } }] }
  scopeLogs := []

theorem routing_partition_anthropic :
    ∃ settings, resolveProxySettings (fun _ => .error .notPresent)
        { anthropicEndpoint := some "http://127.0.0.1:4317" } none (some (.file "telemetry.jsonl")) =
          .ok (some settings) ∧
      (ofSettings settings).offers
          (.logs { resourceLogs := [serviceLogs "codex_exec", serviceLogs "claude-code"] }) =
        [some (.logs { resourceLogs := [serviceLogs "claude-code"] })] := by
  generalize input : resolveProxySettings (fun _ => .error .notPresent)
    { anthropicEndpoint := some "http://127.0.0.1:4317" } none
      (some (.file "telemetry.jsonl")) = outcome
  have facts : outcome.toOption.join.any (fun settings =>
      settings.routes.map (fun route => (route.serviceNames, route.acceptsSignal .logs)) =
        [(["claude-code"], true)]) = true := by
    rw [← input]
    decide +kernel
  obtain ⟨settings, found, facts⟩ := (Option.any_eq_true _ _).mp facts
  obtain ⟨route, only, fields⟩ := List.map_eq_singleton_iff.mp (of_decide_eq_true facts)
  obtain ⟨names, accepts⟩ := Prod.mk.inj fields
  obtain rfl : outcome = .ok (some settings) := by
    cases outcome with
    | error reason => cases found
    | ok value => exact congrArg Except.ok found
  refine ⟨settings, rfl, ?_⟩
  rw [(routing_partition input _).1, only]
  simp [Call.signal, accepts, Call.resources, Call.restrict, ProxyRoute.listsService, names,
    extractServiceName, attrValue, serviceLogs]

end ProxyRouter

end OtelLogger
