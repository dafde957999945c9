import Qubit.Agent.EnvoyParser

/-!
# What an Envoy config makes resolvable

The cache of a Core that got the routes of one config, described over the config. A
domain is led by the last virtual host that lists it and whose cluster stands for a
service, and a cluster name stands for the service of the last cluster of this name whose
address has one. The address of a cluster is led to its own service only where no virtual
host leads it.
-/

namespace Qubit.Agent

open KeyedWrite (GivenLast getLast?_filterMap_eq_some_iff)

/-- A cluster of this name with an address that reads as this service. -/
structure Provides (name : String) (cluster : Yaml) (target : String × String) : Prop where
  named : cluster["name"].asStr? = some name
  nonempty : name ≠ ""
  parses : svcNamespaceFromFqdn (clusterAddress cluster) = some target

/-- The service of the last cluster of this name that has one. -/
def StandsFor (value : Yaml) (name : String) (target : String × String) : Prop :=
  GivenLast (Provides name) value["static_resources"]["clusters"].items target

/-- A virtual host that lists the domain and whose first route leads to this service. -/
structure Serves (value : Yaml) (domain : String) (virtualHost : Yaml)
    (target : String × String) : Prop where
  plain : ¬IsWildcard domain
  listed : domain ∈ virtualHost["domains"].texts
  routed : ∃ name, virtualHost["routes"][0]["route"]["cluster"].asStr? = some name ∧
    StandsFor value name target

/-- The domain is the address of a named cluster and reads as this service. -/
structure IsAddress (value : Yaml) (domain : String) (target : String × String) : Prop where
  address : ∃ cluster ∈ value["static_resources"]["clusters"].items, ∃ name,
    cluster["name"].asStr? = some name ∧ name ≠ "" ∧ clusterAddress cluster = domain
  parses : svcNamespaceFromFqdn domain = some target

/-- What a cluster provides under a name. -/
def provided? (name : String) (cluster : Yaml) : Option (String × String) :=
  (clusterUpstream? cluster).bind fun upstream =>
    if upstream.1 = name then some upstream.2.2 else none

theorem clusterUpstream?_eq_some_iff_provides {cluster : Yaml} {name addr : String}
    {target : String × String} :
    clusterUpstream? cluster = some (name, addr, target) ↔
      Provides name cluster target ∧ clusterAddress cluster = addr := by
  rw [clusterUpstream?_eq_some_iff]
  constructor
  · rintro ⟨named, nonempty, rfl, parses⟩
    exact ⟨⟨named, nonempty, parses⟩, rfl⟩
  · rintro ⟨provides, rfl⟩
    exact ⟨provides.named, provides.nonempty, rfl, provides.parses⟩

theorem provided?_eq_some_iff (name : String) (cluster : Yaml) (target : String × String) :
    provided? name cluster = some target ↔ Provides name cluster target := by
  simp only [provided?, Option.bind_eq_some_iff, Prod.exists]
  constructor
  · rintro ⟨other, addr, svc, ns, upstream, same⟩
    rw [Option.ite_none_right_eq_some] at same
    rcases same with ⟨rfl, same⟩
    obtain rfl := Option.some.inj same
    exact (clusterUpstream?_eq_some_iff_provides.mp upstream).1
  · intro provides
    exact ⟨name, clusterAddress cluster, target.1, target.2,
      clusterUpstream?_eq_some_iff_provides.mpr ⟨provides, rfl⟩, if_pos rfl⟩

theorem lookup_clusterMap_iff {value : Yaml} {name : String} {target : String × String} :
    (clusterMap value).lookup name = some target ↔ StandsFor value name target := by
  rw [StandsFor, ← getLast?_filterMap_eq_some_iff (provided?_eq_some_iff name), clusterMap,
    Finmap.lookup_collect, clusterUpstreams, List.filterMap_map, List.filterMap_filterMap]
  rfl

theorem not_standsFor_empty (value : Yaml) (target : String × String) :
    ¬StandsFor value "" target := by
  rintro ⟨_, cluster, _, -, provides, -⟩
  exact provides.nonempty rfl

theorem virtualHostUpstream?_eq_some_iff {value virtualHost : Yaml} {target : String × String} :
    virtualHostUpstream? value virtualHost = some target ↔
      ∃ name, virtualHost["routes"][0]["route"]["cluster"].asStr? = some name ∧
        StandsFor value name target := by
  rw [virtualHostUpstream?, lookup_clusterMap_iff]
  cases virtualHost["routes"][0]["route"]["cluster"].asStr? with
  | none => simp [not_standsFor_empty]
  | some name => simp

theorem routedUpstream?_eq_some_iff (value : Yaml) (domain : String) (virtualHost : Yaml)
    (target : String × String) :
    routedUpstream? value domain virtualHost = some target ↔
      Serves value domain virtualHost target := by
  simp only [routedUpstream?, listedUpstream?, Option.ite_none_left_eq_some,
    Option.ite_none_right_eq_some, virtualHostUpstream?_eq_some_iff]
  constructor
  · rintro ⟨plain, listed, routed⟩
    exact ⟨plain, listed, routed⟩
  · intro serves
    exact ⟨serves.plain, serves.listed, serves.routed⟩

theorem mem_domains_clusterRoutes {value : Yaml} {domain : String} :
    domain ∈ (clusterRoutes value).map EnvoyRoute.domain ↔
      ∃ cluster ∈ value["static_resources"]["clusters"].items, ∃ name target,
        Provides name cluster target ∧ clusterAddress cluster = domain := by
  simp only [clusterRoutes, clusterUpstreams, List.map_map, List.mem_map, List.mem_filterMap,
    Prod.exists, Function.comp_apply]
  constructor
  · rintro ⟨name, addr, svc, ns, ⟨cluster, clusterMem, upstream⟩, rfl⟩
    exact ⟨cluster, clusterMem, name, svc, ns, clusterUpstream?_eq_some_iff_provides.mp upstream⟩
  · rintro ⟨cluster, clusterMem, name, svc, ns, provides⟩
    exact ⟨name, domain, svc, ns,
      ⟨cluster, clusterMem, clusterUpstream?_eq_some_iff_provides.mpr provides⟩, rfl⟩

theorem address_eq_some_iff {value : Yaml} {domain : String} {target : String × String} :
    (if domain ∈ (clusterRoutes value).map EnvoyRoute.domain then svcNamespaceFromFqdn domain
      else none) = some target ↔ IsAddress value domain target := by
  rw [Option.ite_none_right_eq_some, mem_domains_clusterRoutes]
  constructor
  · rintro ⟨⟨cluster, clusterMem, name, _, provides, address⟩, parses⟩
    exact ⟨⟨cluster, clusterMem, name, provides.named, provides.nonempty, address⟩, parses⟩
  · rintro ⟨⟨cluster, clusterMem, name, named, nonempty, address⟩, parses⟩
    subst address
    exact ⟨⟨cluster, clusterMem, name, target, ⟨named, nonempty, parses⟩, rfl⟩, parses⟩

end Qubit.Agent
