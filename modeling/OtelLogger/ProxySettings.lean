import OtelLogger.Otlp
import OtelLogger.Library.Validation
import Std.Data.ExtTreeMap
import Mathlib.Data.List.Destutter
import Mathlib.Data.List.Sort

/-!
The routes of the proxy, resolved from the command line, the configuration and the built-in
vendors. Whatever is accepted names each service in one route only.
-/

namespace OtelLogger

open Std (ExtTreeMap TransOrd LawfulEqOrd)

open Validation

inductive ProxyTransport where
  | grpc
  | httpProtobuf
  deriving DecidableEq

inductive ProxyTransportArg where
  | grpc
  | httpProtobuf

def ProxyTransport.fromArg : ProxyTransportArg → ProxyTransport
  | .grpc => grpc
  | .httpProtobuf => httpProtobuf

inductive ProxySignal where
  | logs
  | traces
  | metrics
  deriving DecidableEq

def ProxySignal.all : List ProxySignal := [logs, traces, metrics]

structure ProxyRouteConfig where
  name : String
  serviceNames : List String := []
  signalTypes : List ProxySignal := []
  transport : Option ProxyTransport := none
  endpoint : String
  headers : ExtTreeMap String String := ∅

structure ProxyConfig where
  queueCapacity : Option ℕ := none
  timeoutMs : Option ℕ := none
  retryMax : Option ℕ := none
  checkpointDir : Option String := none
  routes : List ProxyRouteConfig := []

structure ProxyCliInputs where
  anthropicEndpoint : Option String := none
  anthropicTransport : Option ProxyTransportArg := none
  anthropicHeaders : List String := []
  openaiEndpoint : Option String := none
  openaiTransport : Option ProxyTransportArg := none
  openaiHeaders : List String := []
  checkpointDir : Option String := none

inductive LogSink where
  | file (path : String)
  | directory (dir : String) (keepDays : ℕ)

structure ProxyRoute where
  name : String
  serviceNames : List String
  signals : List ProxySignal
  transport : ProxyTransport
  endpoint : String
  headers : List (String × String)

def ProxyRoute.acceptsSignal (route : ProxyRoute) (signal : ProxySignal) : Bool :=
  route.signals.contains signal

/-- Without the checkpoint directory, which nothing reads yet. -/
structure ProxySettings where
  queueCapacity : ℕ
  timeoutMs : ℕ
  retryMax : ℕ
  routes : List ProxyRoute

inductive VarError where
  | notPresent
  | notUnicode

def defaultProxyQueueCapacity : ℕ := 1024

def defaultProxyTimeoutMs : ℕ := 5000

def defaultProxyRetryMax : ℕ := 8

def defaultAnthropicServices : List String := ["claude-code"]

def defaultOpenaiServices : List String :=
  ["codex_cli_rs", "codex_exec", "codex-app-server", "codex_mcp_server", "Codex Desktop",
    "codex-exec-server"]

def routeAnthropic : String := "anthropic"

def routeOpenai : String := "openai"

/-! ### Headers -/

/-- The characters of the Unicode property `White_Space`. -/
def isWhitespace (c : Char) : Bool :=
  (9 ≤ c.toNat && c.toNat ≤ 13) || (0x2000 ≤ c.toNat && c.toNat ≤ 0x200A) ||
    [0x20, 0x85, 0xA0, 0x1680, 0x2028, 0x2029, 0x202F, 0x205F, 0x3000].contains c.toNat

def isControl (c : Char) : Bool :=
  c.toNat < 0x20 || (0x7F ≤ c.toNat && c.toNat < 0xA0)

def isAsciiGraphic (c : Char) : Bool :=
  0x21 ≤ c.toNat && c.toNat ≤ 0x7E

def trim (text : String) : String :=
  String.ofList ((text.toList.dropWhile isWhitespace).reverse.dropWhile isWhitespace).reverse

def toAsciiLowercase (text : String) : String :=
  String.ofList (text.toList.map Char.toLower)

def splitOnce (separator : Char) (text : String) : Option (String × String) :=
  if separator ∈ text.toList then
    some (String.ofList (text.toList.takeWhile (· ≠ separator)),
      String.ofList (text.toList.dropWhile (· ≠ separator)).tail)
  else none

def stripPrefix (start text : String) : Option String :=
  if start.toList <+: text.toList then
    some (String.ofList (text.toList.drop start.toList.length))
  else none

def mergeCliHeader (dest : ExtTreeMap String String) (position : ℕ) (entry : String) :
    Except String (ExtTreeMap String String) :=
  match splitOnce '=' entry with
  | none =>
      throw s!"proxy header #{position} must use KEY=VALUE format (value not shown)"
  | some (key, value) =>
      if trim key = "" then
        throw s!"proxy header #{position} has empty key (value not shown)"
      else
        pure ((dest.filter fun existing _ =>
          toAsciiLowercase existing ≠ toAsciiLowercase (trim key)).insert
            (toAsciiLowercase (trim key)) value)

def mergeCliHeaders (dest : ExtTreeMap String String) (entries : List String) :
    Except String (ExtTreeMap String String) :=
  entries.zipIdx.foldlM (fun dest entry => mergeCliHeader dest (entry.2 + 1) entry.1) dest

def headerSeparators : List Char :=
  ['(', ')', ',', '/', ':', ';', '<', '=', '>', '?', '@', '[', '\\', ']', '\x7b', '\x7d', '"']

def disallowedKeys : List String := ["host", "content-length", "transfer-encoding"]

def validateHeaderKey (key route : String) : Except String Unit :=
  if key = "" then throw s!"proxy route `{route}` has an empty header key"
  else
    match key.toList.findIdx? fun c => !(isAsciiGraphic c && !headerSeparators.contains c) with
    | some position =>
        throw s!"proxy route `{route}` header key contains an invalid character at position {position}"
    | none =>
        if disallowedKeys.contains (toAsciiLowercase key) then
          throw s!"proxy route `{route}`: header `{key}` is reserved and cannot be overridden"
        else pure ()

def validateHeaderChar (key route : String) (c : Char) (position : ℕ) : Except String Unit :=
  if c = '\n' ∨ c = '\r' then
    throw s!"proxy route `{route}`: header `{key}` contains a CR/LF at position {position}"
  else if (isControl c ∧ c ≠ '\t') ∨ c = '\x00' then
    throw s!"proxy route `{route}`: header `{key}` contains a control character at position {position}"
  else pure ()

def validateHeaderValue (key value route : String) : Except String Unit :=
  value.toList.zipIdx.forM fun entry => validateHeaderChar key route entry.1 entry.2

section Environment

-- `std::env::var`
variable (environment : String → Except VarError String)

def expandVariable (key value route : String) : Except String String :=
  match stripPrefix "env:" value with
  | none => pure value
  | some variableName =>
      match environment variableName with
      | .ok found => pure found
      | .error reason =>
          let text :=
            match reason with
            | .notPresent => "is not set"
            | .notUnicode => "is not valid Unicode"
          throw s!"proxy route `{route}`: env var `{variableName}` (referenced by header `{key}`) {text} (value not shown)"

def resolveHeader (route : String) (resolved : List (String × String))
    (header : String × String) : Except String (List (String × String)) := do
  validateHeaderKey header.1 route
  let key := toAsciiLowercase header.1
  if resolved.any fun existing => existing.1 = key then
    throw s!"proxy route `{route}` has duplicate header `{key}` (header names are case-insensitive)"
  let value ← expandVariable environment key header.2 route
  validateHeaderValue key value route
  return resolved ++ [(key, value)]

def resolveHeaders (raw : ExtTreeMap String String) (route : String) :
    Except String (List (String × String)) :=
  raw.toList.foldlM (resolveHeader environment route) []

/-! ### Routes -/

def ProxySignal.rank : ProxySignal → ℕ
  | logs => 0
  | traces => 1
  | metrics => 2

def normalizeSignals (signals : List ProxySignal) : List ProxySignal :=
  if signals.isEmpty then ProxySignal.all
  else (signals.insertionSort fun first second => first.rank ≤ second.rank).destutter (· ≠ ·)

def normalizeServiceNames (explicit defaults : List String) : List String :=
  if explicit.isEmpty then defaults else explicit

/-- What the command line and the configuration give for a built-in vendor; an endpoint on the
command line overrides the configured one, and so do a transport and headers. -/
structure VendorParts where
  endpoint : String
  transport : ProxyTransport
  headersMap : ExtTreeMap String String
  signals : List ProxySignal
  serviceNames : List String

def vendorParts (name : String) (defaultServices : List String) (cliEndpoint : Option String)
    (cliTransport : Option ProxyTransportArg) (cliHeaders : List String) :
    Option ProxyRouteConfig → Except String (Option VendorParts)
  | some cfg => do
      let headers ← mergeCliHeaders cfg.headers cliHeaders
      return some {
        endpoint := cliEndpoint.getD cfg.endpoint
        transport := ((cliTransport.map ProxyTransport.fromArg).or cfg.transport).getD .grpc
        headersMap := headers
        signals := normalizeSignals cfg.signalTypes
        serviceNames := normalizeServiceNames cfg.serviceNames defaultServices }
  | none =>
      match cliEndpoint with
      | some endpoint => do
          let headers ← mergeCliHeaders ∅ cliHeaders
          return some {
            endpoint := endpoint
            transport := (cliTransport.map ProxyTransport.fromArg).getD .grpc
            headersMap := headers
            signals := ProxySignal.all
            serviceNames := defaultServices }
      | none =>
          if cliTransport.isSome ∨ cliHeaders ≠ [] then
            throw s!"--proxy-{name}-transport/--proxy-{name}-header require --proxy-{name}-endpoint"
          else pure none

def buildVendorRoute (name : String) (defaultServices : List String)
    (cliEndpoint : Option String) (cliTransport : Option ProxyTransportArg)
    (cliHeaders : List String) (config : Option ProxyRouteConfig) :
    Except String (Option ProxyRoute) := do
  match ← vendorParts name defaultServices cliEndpoint cliTransport cliHeaders config with
  | none => return none
  | some parts =>
      let headers ← resolveHeaders environment parts.headersMap name
      return some {
        name := name
        serviceNames := parts.serviceNames
        signals := parts.signals
        transport := parts.transport
        endpoint := parts.endpoint
        headers := headers }

def buildCustomRoute (cfg : ProxyRouteConfig) : Except String ProxyRoute := do
  if cfg.endpoint = "" then throw s!"proxy route `{cfg.name}` has empty endpoint"
  if cfg.serviceNames.isEmpty then
    throw s!"custom proxy route `{cfg.name}` must specify at least one `service-names` entry"
  let headers ← resolveHeaders environment cfg.headers cfg.name
  return {
    name := cfg.name
    serviceNames := cfg.serviceNames
    signals := normalizeSignals cfg.signalTypes
    transport := cfg.transport.getD .grpc
    endpoint := cfg.endpoint
    headers := headers }

def keyRoute (routes : ExtTreeMap String ProxyRouteConfig) (route : ProxyRouteConfig) :
    Except String (ExtTreeMap String ProxyRouteConfig) :=
  if routes.contains route.name then
    throw s!"duplicate proxy route name `{route.name}` in configuration"
  else pure (routes.insert route.name route)

/-- Registers a service name of the route called `owner`. -/
def claimService (owner : String) (seen : ExtTreeMap String String) (service : String) :
    Except String (ExtTreeMap String String) :=
  if service = "" then
    throw s!"proxy route `{owner}` contains an empty `service-names` entry"
  else
    match seen[service]? with
    | some previous =>
        throw s!"proxy `service.name` `{service}` is claimed by both routes `{previous}` and `{owner}`"
    | none => pure (seen.insert service owner)

def claimServices (routes : List ProxyRoute) : Except String (ExtTreeMap String String) :=
  routes.foldlM (fun seen route => route.serviceNames.foldlM (claimService route.name) seen) ∅

/-- An empty path is refused only where it would be used. -/
def checkCheckpointDir (cliDir configDir : Option String) : Except String Unit :=
  match cliDir, configDir with
  | none, some "" =>
      throw "`proxy.checkpoint-dir` in the config file is empty; set a path or remove the key"
  | _, _ => pure ()

def resolveProxySettings (cli : ProxyCliInputs) (config : Option ProxyConfig)
    (logSink : Option LogSink) : Except String (Option ProxySettings) := do
  let config := config.getD {}
  let configRoutes ← config.routes.foldlM keyRoute ∅
  let anthropic ← buildVendorRoute environment routeAnthropic defaultAnthropicServices
    cli.anthropicEndpoint cli.anthropicTransport cli.anthropicHeaders configRoutes[routeAnthropic]?
  let configRoutes := configRoutes.erase routeAnthropic
  let openai ← buildVendorRoute environment routeOpenai defaultOpenaiServices
    cli.openaiEndpoint cli.openaiTransport cli.openaiHeaders configRoutes[routeOpenai]?
  let configRoutes := configRoutes.erase routeOpenai
  let custom ← configRoutes.toList.mapM fun entry => buildCustomRoute environment entry.2
  let routes := anthropic.toList ++ openai.toList ++ custom
  if routes.isEmpty then return none
  let _ ← claimServices routes
  if logSink.isNone then
    throw "proxy forwarding requires a JSONL outbox (set --log-file or --log-dir); Phase A persists every accepted batch before forwarding, but does not replay it"
  checkCheckpointDir cli.checkpointDir config.checkpointDir
  return some {
    queueCapacity := (config.queueCapacity.filter (0 < ·)).getD defaultProxyQueueCapacity
    timeoutMs := (config.timeoutMs.filter (0 < ·)).getD defaultProxyTimeoutMs
    retryMax := config.retryMax.getD defaultProxyRetryMax
    routes := routes }

/-! ### What accepted settings satisfy -/

/-- Every route claims a service, and no service is empty or claimed twice. -/
structure WellNamed (routes : List ProxyRoute) : Prop where
  claims : ∀ route ∈ routes, route.serviceNames ≠ []
  once : (routes.flatMap ProxyRoute.serviceNames).Nodup
  named : "" ∉ routes.flatMap ProxyRoute.serviceNames

theorem normalizeServiceNames_ne_nil {defaults : List String} (some : defaults ≠ [])
    (explicit : List String) : normalizeServiceNames explicit defaults ≠ [] := by
  rw [normalizeServiceNames]
  split
  · exact some
  · rename_i listed
    simpa using listed

variable {environment}

theorem vendorParts_services {name : String} {defaults : List String} {endpoint : Option String}
    {transport : Option ProxyTransportArg} {headers : List String}
    {config : Option ProxyRouteConfig} {parts : VendorParts} (listed : defaults ≠ [])
    (built : vendorParts name defaults endpoint transport headers config = .ok (some parts)) :
    parts.serviceNames ≠ [] := by
  cases config with
  | some cfg =>
      obtain ⟨merged, _, result⟩ := bind_ok_iff.mp built
      obtain rfl := Option.some.inj (pure_ok_iff.mp result)
      exact normalizeServiceNames_ne_nil listed cfg.serviceNames
  | none =>
      cases endpoint with
      | some endpoint =>
          obtain ⟨merged, _, result⟩ := bind_ok_iff.mp built
          obtain rfl := Option.some.inj (pure_ok_iff.mp result)
          exact listed
      | none =>
          rw [vendorParts, refuse_ok_iff] at built
          cases built.2

theorem buildVendorRoute_services {name : String} {defaults : List String}
    {endpoint : Option String} {transport : Option ProxyTransportArg} {headers : List String}
    {config : Option ProxyRouteConfig} {route : ProxyRoute} (listed : defaults ≠ [])
    (built : buildVendorRoute environment name defaults endpoint transport headers config =
      .ok (some route)) : route.serviceNames ≠ [] := by
  obtain ⟨parts, given, rest⟩ := bind_ok_iff.mp built
  cases parts with
  | none => cases rest
  | some parts =>
      obtain ⟨resolved, _, result⟩ := bind_ok_iff.mp rest
      obtain rfl := Option.some.inj (pure_ok_iff.mp result)
      exact vendorParts_services listed given

theorem buildCustomRoute_services {cfg : ProxyRouteConfig} {route : ProxyRoute}
    (built : buildCustomRoute environment cfg = .ok route) : route.serviceNames ≠ [] := by
  rw [buildCustomRoute] at built
  obtain ⟨_, rest⟩ := refuse_ok_iff.mp built
  obtain ⟨listed, rest⟩ := refuse_ok_iff.mp rest
  obtain ⟨resolved, _, result⟩ := bind_ok_iff.mp rest
  obtain rfl := pure_ok_iff.mp result
  simpa using listed

/-- The names passed so far are the ones seen, each once. -/
structure Claimed (names : List String) (seen : ExtTreeMap String String) : Prop where
  mem : ∀ name, name ∈ seen ↔ name ∈ names
  once : names.Nodup
  named : "" ∉ names

theorem Claimed.claim {names : List String} {seen next : ExtTreeMap String String}
    {owner service : String} (claimed : Claimed names seen)
    (accepted : claimService owner seen service = .ok next) :
    Claimed (names ++ [service]) next := by
  rw [claimService, refuse_ok_iff] at accepted
  obtain ⟨named, accepted⟩ := accepted
  split at accepted
  · cases accepted
  · rename_i absent
    obtain rfl := pure_ok_iff.mp accepted
    have fresh : service ∉ names := by
      rw [← claimed.mem]
      rw [ExtTreeMap.mem_iff_isSome_getElem?, absent]
      exact Bool.false_ne_true
    refine ⟨?_, ?_, ?_⟩
    · intro name
      rw [ExtTreeMap.mem_insert, claimed.mem, List.mem_append, List.mem_singleton,
        Std.compare_eq_iff_eq]
      exact or_comm.trans (or_congr Iff.rfl eq_comm)
    · exact List.nodup_append.mpr ⟨claimed.once, List.nodup_singleton service,
        fun first member second last => by
          obtain rfl := List.mem_singleton.mp last
          exact fun same => fresh (same ▸ member)⟩
    · simp [claimed.named, Ne.symm named]

theorem claimServices_claimed {routes : List ProxyRoute} {seen : ExtTreeMap String String}
    (accepted : claimServices routes = .ok seen) :
    Claimed (routes.flatMap ProxyRoute.serviceNames) seen := by
  refine invariant_foldlM (motive := fun passed seen =>
    Claimed (passed.flatMap ProxyRoute.serviceNames) seen) ?_ routes [] ∅ seen
      ⟨by simp, List.nodup_nil, List.not_mem_nil⟩ accepted
  intro passed state route next claimed folded
  have later := invariant_foldlM (motive := fun names seen =>
    Claimed (passed.flatMap ProxyRoute.serviceNames ++ names) seen)
      (fun names state service next claimed taken => by
        rw [← List.append_assoc]
        exact claimed.claim taken)
      route.serviceNames [] state next (by simpa using claimed) folded
  simpa using later

/-- An accepted route comes from a vendor, which has services by default, or is a custom one. -/
inductive BuiltRoute (environment : String → Except VarError String) (route : ProxyRoute) : Prop where
  | vendor {name : String} {defaults : List String} {endpoint : Option String}
      {transport : Option ProxyTransportArg} {headers : List String}
      {config : Option ProxyRouteConfig} (listed : defaults ≠ [])
      (built : buildVendorRoute environment name defaults endpoint transport headers config =
        .ok (some route)) : BuiltRoute environment route
  | custom {cfg : ProxyRouteConfig} (built : buildCustomRoute environment cfg = .ok route) :
      BuiltRoute environment route

theorem resolveProxySettings_ok {cli : ProxyCliInputs} {config : Option ProxyConfig}
    {logSink : Option LogSink} {settings : ProxySettings}
    (resolved : resolveProxySettings environment cli config logSink = .ok (some settings)) :
    (∀ route ∈ settings.routes, BuiltRoute environment route) ∧
      ∃ seen, claimServices settings.routes = .ok seen := by
  rw [resolveProxySettings] at resolved
  obtain ⟨configRoutes, _, resolved⟩ := bind_ok_iff.mp resolved
  obtain ⟨anthropic, anthropicBuilt, resolved⟩ := bind_ok_iff.mp resolved
  obtain ⟨openai, openaiBuilt, resolved⟩ := bind_ok_iff.mp resolved
  obtain ⟨custom, customBuilt, resolved⟩ := bind_ok_iff.mp resolved
  obtain ⟨_, resolved⟩ := continue_ok_iff.mp resolved
  obtain ⟨seen, accepted, resolved⟩ := bind_ok_iff.mp resolved
  obtain ⟨_, resolved⟩ := refuse_ok_iff.mp resolved
  obtain ⟨_, _, result⟩ := bind_ok_iff.mp resolved
  obtain rfl := Option.some.inj (pure_ok_iff.mp result)
  refine ⟨?_, seen, accepted⟩
  intro route member
  rcases List.mem_append.mp member with vendor | own
  · rcases List.mem_append.mp vendor with first | second
    · obtain rfl := Option.mem_toList.mp first
      exact .vendor (by decide) anthropicBuilt
    · obtain rfl := Option.mem_toList.mp second
      exact .vendor (by decide) openaiBuilt
  · obtain ⟨entry, _, built⟩ := mem_of_mapM customBuilt own
    exact .custom built

theorem resolveProxySettings_wellNamed {cli : ProxyCliInputs} {config : Option ProxyConfig}
    {logSink : Option LogSink} {settings : ProxySettings}
    (resolved : resolveProxySettings environment cli config logSink = .ok (some settings)) :
    WellNamed settings.routes := by
  obtain ⟨built, seen, accepted⟩ := resolveProxySettings_ok resolved
  have claimed := claimServices_claimed accepted
  refine ⟨?_, claimed.once, claimed.named⟩
  intro route member
  cases built route member with
  | vendor listed built => exact buildVendorRoute_services listed built
  | custom built => exact buildCustomRoute_services built

end Environment

end OtelLogger
