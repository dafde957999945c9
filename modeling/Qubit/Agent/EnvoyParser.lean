import Qubit.Core.Server
import Qubit.Lib.Text
import Qubit.Lib.Yaml

/-!
# Envoy routes

The parser of static Envoy configs and what its routes say to Core. A route leads
from a domain to a service. The endpoints of the clusters give routes under their own
names first, then each virtual host gives the routes of its domains, so that in Core's
cache the last virtual host with the domain wins.

The YAML parser is a parameter: a text is read as a value or refused.
-/

namespace Qubit.Agent

/-- Domain to `(service_name, namespace)`. -/
structure EnvoyRoute where
  domain : String
  serviceName : String
  ns : String
deriving DecidableEq, Repr

/-- `"service-b.default.svc.cluster.local"` is the service `("service-b", "default")`. -/
def svcNamespaceFromFqdn (host : String) : Option (String × String) :=
  let parts := Text.split '.' host
  match parts.idxOf? "svc" with
  | none => none
  | some svcPos =>
      if svcPos < 2 then none
      -- the position is one of the list, so no default is taken
      else some (parts.getD (svcPos - 2) "", parts.getD (svcPos - 1) "")

/-! ## The two passes -/

/-- The address of the first endpoint of a cluster. -/
def clusterAddress (cluster : Yaml) : String :=
  (cluster["load_assignment"]["endpoints"][0]["lb_endpoints"][0]["endpoint"]["address"][
    "socket_address"]["address"].asStr?).getD ""

/-- A named cluster, the address of its endpoint and the service of this address. -/
def clusterUpstream? (cluster : Yaml) : Option (String × String × String × String) :=
  match cluster["name"].asStr? with
  | none => none
  | some name =>
      if name = "" then none
      else
        (svcNamespaceFromFqdn (clusterAddress cluster)).map fun upstream =>
          (name, clusterAddress cluster, upstream)

def clusterUpstreams (value : Yaml) : List (String × String × String × String) :=
  value["static_resources"]["clusters"].items.filterMap clusterUpstream?

/-- Pass 1: each address leads to its own service. -/
def clusterRoutes (value : Yaml) : List EnvoyRoute :=
  (clusterUpstreams value).map fun (_, addr, svc, ns) =>
    { domain := addr, serviceName := svc, ns }

/-- `cluster_name → (service_name, namespace)`. -/
def clusterMap (value : Yaml) : Finmap fun _ : String => String × String :=
  Finmap.collect ((clusterUpstreams value).map fun (name, _, upstream) => (name, upstream))

/-- The route config may live directly in a filter or under its `typed_config`. -/
def routeConfig? (filter : Yaml) : Option Yaml :=
  if filter["typed_config"]["route_config"].isMapping then
    some filter["typed_config"]["route_config"]
  else if filter["route_config"].isMapping then some filter["route_config"]
  else none

def virtualHosts (value : Yaml) : List Yaml :=
  value["static_resources"]["listeners"].items.flatMap fun listener =>
    listener["filter_chains"].items.flatMap fun filterChain =>
      (filterChain["filters"].items.filterMap routeConfig?).flatMap fun routeCfg =>
        routeCfg["virtual_hosts"].items

/-- The service that the cluster of the first route stands for. -/
def virtualHostUpstream? (value virtualHost : Yaml) : Option (String × String) :=
  (clusterMap value).lookup ((virtualHost["routes"][0]["route"]["cluster"].asStr?).getD "")

/-- Wildcards cannot be looked up. -/
def IsWildcard (domain : String) : Prop :=
  domain = "*" ∨ "*.".toList <+: domain.toList

instance : DecidablePred IsWildcard :=
  fun _ => inferInstanceAs (Decidable (_ ∨ _))

def virtualHostRoutes (value virtualHost : Yaml) : List EnvoyRoute :=
  match virtualHostUpstream? value virtualHost with
  | none => []
  | some (svc, ns) =>
      (virtualHost["domains"].texts.filter fun domain => ¬IsWildcard domain).map fun domain =>
        { domain, serviceName := svc, ns }

def parseEnvoyRoutes (fromStr : String → Option Yaml) (yamlStr : String) : List EnvoyRoute :=
  match fromStr yamlStr with
  | none => []
  | some value =>
      clusterRoutes value ++ (virtualHosts value).flatMap (virtualHostRoutes value)

def ClusterAggregator.sendEnvoyRoutes (routes : List EnvoyRoute) : EnvoyRoutesRequest where
  entries := routes.map fun route =>
    { domain := route.domain, serviceName := route.serviceName, ns := route.ns }

/-! ## What Core is told of a domain -/

/-- A route as a write to Core's Envoy cache. -/
def EnvoyRoute.write (route : EnvoyRoute) : KeyedWrite String (String × String) where
  key := route.domain
  value := some (route.serviceName, route.ns)

theorem operationsOf_sendEnvoyRoutes (routes : List EnvoyRoute) :
    operationsOf [.sendEnvoyRoutes (ClusterAggregator.sendEnvoyRoutes routes)] =
      routes.map fun route => .envoyRoute route.domain route.serviceName route.ns := by
  simp [operationsOf, Request.operations, ClusterAggregator.sendEnvoyRoutes]

theorem routeWrites_sendEnvoyRoutes (routes : List EnvoyRoute) :
    (operationsOf [.sendEnvoyRoutes (ClusterAggregator.sendEnvoyRoutes routes)]).filterMap
        Operation.routeWrite? = routes.map EnvoyRoute.write := by
  rw [operationsOf_sendEnvoyRoutes, List.filterMap_map]
  exact congrFun List.filterMap_eq_map' routes

theorem envoyCache_sendEnvoyRoutes (state : CoreState) (routes : List EnvoyRoute) :
    (state.run [.sendEnvoyRoutes (ClusterAggregator.sendEnvoyRoutes routes)]).envoyCache =
      KeyedWrite.replay state.envoyCache (routes.map EnvoyRoute.write) := by
  rw [CoreState.run_eq_foldl, CoreState.envoyCache_foldl_apply, routeWrites_sendEnvoyRoutes]

theorem podCache_sendEnvoyRoutes (state : CoreState) (routes : List EnvoyRoute) :
    (state.run [.sendEnvoyRoutes (ClusterAggregator.sendEnvoyRoutes routes)]).podCache =
      state.podCache := by
  have silent : (routes.map fun route => Operation.envoyRoute route.domain route.serviceName
      route.ns).filterMap Operation.podWrite? = [] := by
    simp [Operation.podWrite?]
  rw [CoreState.podCache_run, operationsOf_sendEnvoyRoutes, silent]
  rfl

/-- A domain that has a route has an entry, of this route or of another one. -/
theorem exists_last_routes {routes : List EnvoyRoute} {route : EnvoyRoute}
    (routeMem : route ∈ routes) :
    ∃ last ∈ routes, last.domain = route.domain ∧
      KeyedWrite.last route.domain (routes.map EnvoyRoute.write) = some last.write := by
  have written : route.write ∈ routes.map EnvoyRoute.write := List.mem_map_of_mem routeMem
  rcases KeyedWrite.exists_last_of_mem written with ⟨write, found⟩
  change KeyedWrite.last route.domain _ = some write at found
  rcases List.mem_map.mp (KeyedWrite.mem_of_last_eq_some found) with ⟨last, lastMem, rfl⟩
  exact ⟨last, lastMem, KeyedWrite.key_of_last_eq_some found, found⟩

/-- The service of a virtual host that lists the domain. -/
def listedUpstream? (value : Yaml) (domain : String) (virtualHost : Yaml) :
    Option (String × String) :=
  if domain ∈ virtualHost["domains"].texts then virtualHostUpstream? value virtualHost else none

/--
The service that a config leads a domain to: that of the last virtual host with a known cluster
that lists it, else its own, if it is the address of a cluster.
-/
def domainUpstream? (value : Yaml) (domain : String) : Option (String × String) :=
  ((virtualHosts value).filterMap (listedUpstream? value domain)).getLast?.or
    (if domain ∈ (clusterRoutes value).map EnvoyRoute.domain then svcNamespaceFromFqdn domain
      else none)

/-- The same service, if the domain is not a wildcard. -/
def routedUpstream? (value : Yaml) (domain : String) (virtualHost : Yaml) :
    Option (String × String) :=
  if IsWildcard domain then none else listedUpstream? value domain virtualHost

theorem not_isWildcard {domain : String} (exact : '*' ∉ domain.toList) : ¬IsWildcard domain := by
  rintro (rfl | starts)
  · exact exact (by decide)
  · exact exact (starts.subset (by decide))

theorem last_virtualHostRoutes (value virtualHost : Yaml) (domain : String) :
    KeyedWrite.last domain ((virtualHostRoutes value virtualHost).map EnvoyRoute.write) =
      (routedUpstream? value domain virtualHost).map fun target =>
        { key := domain, value := some target } := by
  rw [virtualHostRoutes, routedUpstream?, listedUpstream?]
  cases virtualHostUpstream? value virtualHost with
  | none => simp [KeyedWrite.last]
  | some target =>
      dsimp only
      rw [List.map_map]
      change KeyedWrite.last domain (List.map (fun other => { key := other, value := some target })
        (virtualHost["domains"].texts.filter fun other => ¬IsWildcard other)) = _
      rw [KeyedWrite.last_map]
      by_cases wildcard : IsWildcard domain
      · simp [wildcard]
      · by_cases member : domain ∈ virtualHost["domains"].texts
        · simp [wildcard, member]
        · simp [wildcard, member]

/-- What stands for a cluster: its name, its address and the service that the address names. -/
theorem clusterUpstream?_eq_some_iff {cluster : Yaml} {name addr : String}
    {target : String × String} :
    clusterUpstream? cluster = some (name, addr, target) ↔
      cluster["name"].asStr? = some name ∧ name ≠ "" ∧ clusterAddress cluster = addr ∧
        svcNamespaceFromFqdn addr = some target := by
  constructor
  · intro upstream
    simp only [clusterUpstream?] at upstream
    split at upstream
    · cases upstream
    · rename_i other named
      rw [Option.ite_none_left_eq_some, Option.map_eq_some_iff] at upstream
      rcases upstream with ⟨nonempty, resolved, parses, same⟩
      simp only [Prod.mk.injEq] at same
      rcases same with ⟨rfl, rfl, rfl⟩
      exact ⟨named, nonempty, rfl, parses⟩
  · rintro ⟨named, nonempty, rfl, parses⟩
    simp [clusterUpstream?, named, nonempty, parses]

/-- The address of a cluster leads to the service that it is the name of. -/
theorem svcNamespaceFromFqdn_of_mem {value : Yaml} {route : EnvoyRoute}
    (routeMem : route ∈ clusterRoutes value) :
    svcNamespaceFromFqdn route.domain = some (route.serviceName, route.ns) := by
  rcases List.mem_map.mp routeMem with ⟨⟨name, addr, svc, ns⟩, upstreamMem, rfl⟩
  rcases List.mem_filterMap.mp upstreamMem with ⟨cluster, -, upstream⟩
  exact (clusterUpstream?_eq_some_iff.mp upstream).2.2.2

theorem last_clusterRoutes (value : Yaml) (domain : String) :
    KeyedWrite.last domain ((clusterRoutes value).map EnvoyRoute.write) =
      (if domain ∈ (clusterRoutes value).map EnvoyRoute.domain then svcNamespaceFromFqdn domain
        else none).map fun target => { key := domain, value := some target } := by
  by_cases address : domain ∈ (clusterRoutes value).map EnvoyRoute.domain
  · rw [if_pos address]
    rcases List.mem_map.mp address with ⟨route, routeMem, rfl⟩
    rcases exists_last_routes routeMem with ⟨last, lastMem, sameDomain, isLast⟩
    rw [isLast, ← sameDomain, svcNamespaceFromFqdn_of_mem lastMem]
    rfl
  · rw [if_neg address, Option.map_none, KeyedWrite.last_eq_none_iff]
    intro write writeMem same
    rcases List.mem_map.mp writeMem with ⟨route, routeMem, rfl⟩
    exact address (List.mem_map.mpr ⟨route, routeMem, same⟩)

/-- The last route of a domain is that of the last virtual host that routes it, else its own. -/
theorem last_routes {fromStr : String → Option Yaml} {yamlStr : String} {value : Yaml}
    (parsed : fromStr yamlStr = some value) (domain : String) :
    KeyedWrite.last domain ((parseEnvoyRoutes fromStr yamlStr).map EnvoyRoute.write) =
      (((virtualHosts value).filterMap (routedUpstream? value domain)).getLast?.or
        (if domain ∈ (clusterRoutes value).map EnvoyRoute.domain then svcNamespaceFromFqdn domain
          else none)).map fun target => { key := domain, value := some target } := by
  rw [parseEnvoyRoutes, parsed]
  dsimp only
  rw [List.map_append, KeyedWrite.last_append, List.map_flatMap, KeyedWrite.last_flatMap,
    last_clusterRoutes, Option.map_or, ← List.getLast?_map, List.map_filterMap]
  simp only [last_virtualHostRoutes]

/-- The routes of a config say of each domain what the config leads it to. -/
theorem last_parseEnvoyRoutes {fromStr : String → Option Yaml} {yamlStr : String} {value : Yaml}
    (parsed : fromStr yamlStr = some value) {domain : String} (exact : '*' ∉ domain.toList) :
    KeyedWrite.last domain ((parseEnvoyRoutes fromStr yamlStr).map EnvoyRoute.write) =
      (domainUpstream? value domain).map fun target =>
        { key := domain, value := some target } := by
  have routed : routedUpstream? value domain = listedUpstream? value domain := by
    funext virtualHost
    exact if_neg (not_isWildcard exact)
  rw [last_routes parsed, domainUpstream?, routed]

/-! ## Where the domain of a virtual host resolves to -/

theorem listedUpstream?_of_mem {value virtualHost : Yaml} {domain svc ns : String}
    (emitted : ⟨domain, svc, ns⟩ ∈ virtualHostRoutes value virtualHost) :
    listedUpstream? value domain virtualHost = some (svc, ns) := by
  rw [virtualHostRoutes] at emitted
  rw [listedUpstream?]
  cases upstream : virtualHostUpstream? value virtualHost with
  | none =>
      rw [upstream] at emitted
      cases emitted
  | some target =>
      rw [upstream] at emitted
      rcases List.mem_map.mp emitted with ⟨listed, listedMem, same⟩
      rw [EnvoyRoute.mk.injEq] at same
      rcases same with ⟨rfl, rfl, rfl⟩
      rw [if_pos (List.mem_of_mem_filter listedMem)]

/-- A domain that one virtual host lists is led to the service of this one. -/
theorem domainUpstream?_of_only {value virtualHost : Yaml} {before after : List Yaml}
    {domain : String} {target : String × String}
    (hosts : virtualHosts value = before ++ virtualHost :: after)
    (only : ∀ other ∈ before ++ after, domain ∉ other["domains"].texts)
    (listed : listedUpstream? value domain virtualHost = some target) :
    domainUpstream? value domain = some target := by
  have silent : ∀ others : List Yaml, (∀ other ∈ others, domain ∉ other["domains"].texts) →
      others.filterMap (listedUpstream? value domain) = [] := by
    intro others unlisted
    rw [List.filterMap_eq_nil_iff]
    intro other otherMem
    rw [listedUpstream?, if_neg (unlisted other otherMem)]
  rw [List.forall_mem_append] at only
  rw [domainUpstream?, hosts, List.filterMap_append, List.filterMap_cons_some listed,
    silent before only.1, silent after only.2]
  rfl

/-- After the routes of a config, an event is destined to what the config leads its host to. -/
theorem destination_sendEnvoyRoutes {fromStr : String → Option Yaml} {yamlStr : String}
    {value : Yaml} (parsed : fromStr yamlStr = some value) {state : CoreState}
    (unrouted : state.envoyCache = ∅) {input : EbpfNetworkEventInput}
    (exact : '*' ∉ input.host.toList) :
    (state.run [.sendEnvoyRoutes
        (ClusterAggregator.sendEnvoyRoutes (parseEnvoyRoutes fromStr yamlStr))]).destination input =
      let resolved := (domainUpstream? value input.bareHost).getD
        (destinationFromPod input.bareHost (state.podCache.lookup input.dstIpStr))
      { applicationName := resolved.1, ns := resolved.2 } := by
  have exactBare : '*' ∉ input.bareHost.toList := fun star => exact (Text.mem_of_mem_upTo star)
  rw [CoreState.destination, podCache_sendEnvoyRoutes, envoyCache_sendEnvoyRoutes, unrouted,
    KeyedWrite.lookup_replay, last_parseEnvoyRoutes parsed exactBare, Finmap.lookup_empty]
  cases domainUpstream? value input.bareHost with
  | none => rfl
  | some target => rfl

/-- A pod that has another name than the service, and its call to itself. -/
def announceOther (svc : String) : Request :=
  .sendPodEvent ⟨"10.0.0.1", "default", 0, svc ++ "-2", "", ""⟩

def selfCall (host : String) : EbpfNetworkEventInput :=
  ⟨16777226, 16777226, "GET", "/", host⟩

theorem envoyCache_announceOther (svc : String) :
    (CoreState.empty.run [announceOther svc]).envoyCache = ∅ := by
  rw [CoreState.run_eq_foldl, CoreState.envoyCache_foldl_apply]
  rfl

theorem lookup_announceOther (svc : String) :
    (CoreState.empty.run [announceOther svc]).podCache.lookup
        (EbpfNetworkEventInput.ipStr 16777226) =
      some { ns := "default", applicationName := svc ++ "-2", serviceName := "",
             serviceType := "" } := by
  have text : EbpfNetworkEventInput.ipStr 16777226 = "10.0.0.1" := by decide +kernel
  have operations : operationsOf [announceOther svc] =
      [.podApplied "10.0.0.1" ⟨"default", svc ++ "-2", "", ""⟩] := rfl
  rw [CoreState.run_eq_foldl, operations, List.foldl_cons, List.foldl_nil,
    CoreState.podCache_apply_podApplied, text, Finmap.lookup_insert]

theorem named_announceOther (svc : String) : svc ++ "-2" ≠ "" := by
  intro unnamed
  simpa using congrArg String.length unnamed

theorem ne_announceOther (svc : String) : svc ++ "-2" ≠ svc := by
  intro same
  simpa using congrArg String.length same

/--
A domain of one virtual host resolves to its service, for every event of a resolved source, exactly
when the domain has no port or the config leads the domain without its port to the same service.
-/
theorem destination_virtualHost_iff (fromStr : String → Option Yaml) (yamlStr : String)
    (value : Yaml) (parsed : fromStr yamlStr = some value) (before after : List Yaml)
    (virtualHost : Yaml) (hosts : virtualHosts value = before ++ virtualHost :: after)
    (domain : String) (only : ∀ other ∈ before ++ after, domain ∉ other["domains"].texts)
    (exact : '*' ∉ domain.toList) (svc ns : String)
    (emitted : ⟨domain, svc, ns⟩ ∈ virtualHostRoutes value virtualHost) :
    (∀ requests : List Request, (CoreState.empty.run requests).envoyCache = ∅ →
      ∀ (input : EbpfNetworkEventInput) (src : PodInfo),
        ((CoreState.empty.run requests).run [.sendEnvoyRoutes
          (ClusterAggregator.sendEnvoyRoutes (parseEnvoyRoutes fromStr yamlStr))]).observed?
            input = some src →
        input.host = domain →
          ((CoreState.empty.run requests).run [.sendEnvoyRoutes
            (ClusterAggregator.sendEnvoyRoutes (parseEnvoyRoutes fromStr yamlStr))]).destination
              input = { applicationName := svc, ns }) ↔
      ':' ∉ domain.toList ∨ domainUpstream? value (Text.upTo ':' domain) = some (svc, ns) := by
  have listed := domainUpstream?_of_only hosts only (listedUpstream?_of_mem emitted)
  constructor
  · intro resolves
    have source : ((CoreState.empty.run [announceOther svc]).run [.sendEnvoyRoutes
        (ClusterAggregator.sendEnvoyRoutes (parseEnvoyRoutes fromStr yamlStr))]).observed?
          (selfCall domain) = some ⟨"default", svc ++ "-2", "", ""⟩ := by
      rw [CoreState.observed?_eq_some, podCache_sendEnvoyRoutes]
      have notHealth : ¬Text.Contains "/health" "/" := by decide
      exact ⟨notHealth, lookup_announceOther svc, named_announceOther svc⟩
    have resolved := resolves [announceOther svc] (envoyCache_announceOther svc)
      (selfCall domain) _ source rfl
    have bareHost : (selfCall domain).bareHost = Text.upTo ':' domain := rfl
    have dstIp : (selfCall domain).dstIpStr = EbpfNetworkEventInput.ipStr 16777226 := rfl
    rw [destination_sendEnvoyRoutes parsed (envoyCache_announceOther svc) exact, bareHost, dstIp,
      lookup_announceOther, destinationFromPod_some _ (named_announceOther svc)] at resolved
    cases led : domainUpstream? value (Text.upTo ':' domain) with
    | none =>
        rw [led, Option.getD_none, NodeId.mk.injEq] at resolved
        exact absurd resolved.1 (ne_announceOther svc)
    | some target =>
        rw [led, Option.getD_some, NodeId.mk.injEq] at resolved
        exact Or.inr (congrArg some (Prod.ext resolved.1 resolved.2))
  · intro condition requests unrouted input src _ same
    subst same
    have led : domainUpstream? value input.bareHost = some (svc, ns) := by
      rcases condition with noPort | led
      · rw [EbpfNetworkEventInput.bareHost, Text.upTo_eq_self noPort]
        exact listed
      · exact led
    rw [destination_sendEnvoyRoutes parsed unrouted exact, led]
    rfl

/-- A config with one cluster and one virtual host, whose domain has a port. -/
def portConfigText : String :=
  "static_resources:
  clusters:
  - name: api
    load_assignment:
      endpoints:
      - lb_endpoints:
        - endpoint:
            address:
              socket_address:
                address: api.prod.svc.cluster.local
  listeners:
  - filter_chains:
    - filters:
      - typed_config:
          route_config:
            virtual_hosts:
            - domains:
              - api.prod.int:8080
              routes:
              - route:
                  cluster: api
"

def portVirtualHost : Yaml :=
  .mapping
    [(.string "domains", .sequence [.string "api.prod.int:8080"]),
      (.string "routes", .sequence
        [.mapping [(.string "route", .mapping [(.string "cluster", .string "api")])]])]

def portCluster : Yaml :=
  .mapping
    [(.string "name", .string "api"),
      (.string "load_assignment", .mapping
        [(.string "endpoints", .sequence
          [.mapping [(.string "lb_endpoints", .sequence
            [.mapping [(.string "endpoint", .mapping [(.string "address", .mapping
              [(.string "socket_address", .mapping
                [(.string "address", .string "api.prod.svc.cluster.local")])])])]])]])])]

def portListener : Yaml :=
  .mapping
    [(.string "filter_chains", .sequence
      [.mapping [(.string "filters", .sequence
        [.mapping [(.string "typed_config", .mapping
          [(.string "route_config", .mapping
            [(.string "virtual_hosts", .sequence [portVirtualHost])])])]])]])]

def portConfig : Yaml :=
  .mapping
    [(.string "static_resources", .mapping
      [(.string "clusters", .sequence [portCluster]),
        (.string "listeners", .sequence [portListener])])]

/-- A parser that reads the text of the config. -/
def readPortConfig (yamlStr : String) : Option Yaml :=
  if yamlStr = portConfigText then some portConfig else none

theorem parseEnvoyRoutes_portConfig :
    parseEnvoyRoutes readPortConfig portConfigText =
      [⟨"api.prod.svc.cluster.local", "api", "prod"⟩, ⟨"api.prod.int:8080", "api", "prod"⟩] := by
  have parsed : readPortConfig portConfigText = some portConfig := if_pos rfl
  rw [parseEnvoyRoutes, parsed]
  decide +kernel

theorem destination_portVirtualHost_iff :
    (∀ requests : List Request, (CoreState.empty.run requests).envoyCache = ∅ →
      ∀ (input : EbpfNetworkEventInput) (src : PodInfo),
        ((CoreState.empty.run requests).run [.sendEnvoyRoutes (ClusterAggregator.sendEnvoyRoutes
          (parseEnvoyRoutes readPortConfig portConfigText))]).observed? input = some src →
        input.host = "api.prod.int:8080" →
          ((CoreState.empty.run requests).run [.sendEnvoyRoutes (ClusterAggregator.sendEnvoyRoutes
            (parseEnvoyRoutes readPortConfig portConfigText))]).destination input =
              { applicationName := "api", ns := "prod" }) ↔
      ':' ∉ "api.prod.int:8080".toList ∨
        domainUpstream? portConfig (Text.upTo ':' "api.prod.int:8080") = some ("api", "prod") :=
  destination_virtualHost_iff readPortConfig portConfigText portConfig (if_pos rfl) [] []
    portVirtualHost rfl "api.prod.int:8080" (by decide) (by decide) "api" "prod"
    (by decide +kernel)

theorem exists_unresolved_virtualHost :
    ∃ (fromStr : String → Option Yaml) (yamlStr : String) (value : Yaml)
      (before after : List Yaml) (virtualHost : Yaml) (domain svc ns : String)
      (requests : List Request) (input : EbpfNetworkEventInput) (src : PodInfo),
      fromStr yamlStr = some value ∧ virtualHosts value = before ++ virtualHost :: after ∧
        (∀ other ∈ before ++ after, domain ∉ other["domains"].texts) ∧ '*' ∉ domain.toList ∧
        ⟨domain, svc, ns⟩ ∈ virtualHostRoutes value virtualHost ∧
        (CoreState.empty.run requests).envoyCache = ∅ ∧
        ((CoreState.empty.run requests).run [.sendEnvoyRoutes
          (ClusterAggregator.sendEnvoyRoutes (parseEnvoyRoutes fromStr yamlStr))]).observed?
            input = some src ∧
        input.host = domain ∧
        ((CoreState.empty.run requests).run [.sendEnvoyRoutes
          (ClusterAggregator.sendEnvoyRoutes (parseEnvoyRoutes fromStr yamlStr))]).destination
            input ≠ { applicationName := svc, ns } := by
  refine ⟨readPortConfig, portConfigText, portConfig, [], [], portVirtualHost,
    "api.prod.int:8080", "api", "prod", [.sendPodEvent ⟨"10.0.0.1", "default", 0, "web", "", ""⟩],
    ⟨16777226, 150994954, "GET", "/", "api.prod.int:8080"⟩, ⟨"default", "web", "", ""⟩,
    if_pos rfl, rfl, by decide, by decide, by decide +kernel, by decide +kernel, ?_, rfl, ?_⟩
  · rw [parseEnvoyRoutes_portConfig]
    decide +kernel
  · rw [parseEnvoyRoutes_portConfig]
    decide +kernel

end Qubit.Agent
