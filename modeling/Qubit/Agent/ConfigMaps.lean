import Qubit.Agent.EnvoyParser
import Qubit.Agent.ServiceRegistry
import Qubit.Lib.Run

/-!
# ConfigMap events

The handler of ConfigMap watch events and the resync of the Envoy routes. Both send
the routes of the Envoy configs they see, unless there are none, and neither ever
takes a route back: Core learns of a deleted ConfigMap only by name. So after a
resync Core's Envoy cache follows the ConfigMaps exactly when the ones that exist
have a route for every domain that any applied one had a route for.

The initial apply of a ConfigMap is handled like an apply.
-/

namespace Qubit.Agent

structure ConfigMap where
  metadata : ObjectMeta
  data : Option (Finmap fun _ : String => String)
deriving DecidableEq

namespace ConfigMap

/-- The cluster holds one ConfigMap of a name in a namespace. -/
def identity (cm : ConfigMap) : Option String × Option String :=
  (cm.metadata.ns, cm.metadata.name)

/-- The routes of the Envoy config that the ConfigMap contains. -/
def envoyRoutes (fromStr : String → Option Yaml) (cm : ConfigMap) : List EnvoyRoute :=
  match cm.data.bind (·.lookup "envoy.yaml") with
  | none => []
  | some envoyYaml => parseEnvoyRoutes fromStr envoyYaml

end ConfigMap

namespace ClusterAggregator

def sendConfigmapApplied (name ns : String) : ConfigMapEventRequest where
  name := name
  ns := ns
  eventType := K8sEventType.applied.toNumber

def sendConfigmapDeleted (name ns : String) : ConfigMapEventRequest where
  name := name
  ns := ns
  eventType := K8sEventType.deleted.toNumber

end ClusterAggregator

namespace ConfigMapHandler

def onApply (fromStr : String → Option Yaml) (cm : ConfigMap) : List Request :=
  let name := cm.metadata.name.getD ""
  let ns := cm.metadata.ns.getD ""
  let routes := cm.envoyRoutes fromStr
  (if routes = [] then [] else [.sendEnvoyRoutes (ClusterAggregator.sendEnvoyRoutes routes)]) ++
    [.sendConfigMapEvent (ClusterAggregator.sendConfigmapApplied name ns)]

def onDelete (cm : ConfigMap) : List Request :=
  let name := cm.metadata.name.getD ""
  let ns := cm.metadata.ns.getD ""
  [.sendConfigMapEvent (ClusterAggregator.sendConfigmapDeleted name ns)]

end ConfigMapHandler

def sendEnvoyRoutesFromConfigmaps (fromStr : String → Option Yaml) (cmList : List ConfigMap) :
    List Request :=
  let allRoutes := cmList.flatMap (ConfigMap.envoyRoutes fromStr)
  if allRoutes = [] then []
  else [.sendEnvoyRoutes (ClusterAggregator.sendEnvoyRoutes allRoutes)]

/-! ## Histories -/

/-- An event the handler gets, or a resync over a listing of the ConfigMaps. -/
inductive ConfigMapEvent where
  | apply (cm : ConfigMap)
  | delete (cm : ConfigMap)
  | resync (cmList : List ConfigMap)
deriving DecidableEq

/-- The ConfigMaps that exist in the cluster. -/
abbrev ConfigMapStore := Finmap fun _ : Option String × Option String => ConfigMap

namespace ConfigMapEvent

def messages (fromStr : String → Option Yaml) : ConfigMapEvent → List Request
  | .apply cm => ConfigMapHandler.onApply fromStr cm
  | .delete cm => ConfigMapHandler.onDelete cm
  | .resync cmList => sendEnvoyRoutesFromConfigmaps fromStr cmList

/-- The ConfigMaps that exist after the event. -/
def update (store : ConfigMapStore) : ConfigMapEvent → ConfigMapStore
  | .apply cm => store.insert cm.identity cm
  | .delete cm => store.erase cm.identity
  | .resync _ => store

def write? : ConfigMapEvent → Option (KeyedWrite (Option String × Option String) ConfigMap)
  | .apply cm => some { key := cm.identity, value := some cm }
  | .delete cm => some { key := cm.identity, value := none }
  | .resync _ => none

/-- A resync lists the ConfigMaps that exist. -/
def Lists (store : ConfigMapStore) : ConfigMapEvent → Prop
  | .resync cmList => ∀ cm, cm ∈ cmList ↔ store.lookup cm.identity = some cm
  | _ => True

/-- The routes that an event sends. -/
def routes (fromStr : String → Option Yaml) : ConfigMapEvent → List EnvoyRoute
  | .apply cm => cm.envoyRoutes fromStr
  | .delete _ => []
  | .resync cmList => cmList.flatMap (ConfigMap.envoyRoutes fromStr)

end ConfigMapEvent

/-- The ConfigMap exists after the events. -/
def Existing (events : List ConfigMapEvent) (cm : ConfigMap) : Prop :=
  (events.foldl ConfigMapEvent.update ∅).lookup cm.identity = some cm

/-- The Envoy cache follows the ConfigMaps that exist after the events. -/
def FollowsConfigMaps (fromStr : String → Option Yaml) (events : List ConfigMapEvent)
    (state : CoreState) : Prop :=
  ∀ domain target, state.envoyCache.lookup domain = some target →
    ∃ cm, Existing events cm ∧ ⟨domain, target.1, target.2⟩ ∈ cm.envoyRoutes fromStr

theorem update_eq_perform (store : ConfigMapStore) (event : ConfigMapEvent) :
    event.update store = event.write?.elim store (KeyedWrite.perform store) := by
  cases event <;> rfl

/-- A ConfigMap that exists was applied. -/
theorem Existing.apply_mem {events : List ConfigMapEvent} {cm : ConfigMap}
    (present : Existing events cm) : .apply cm ∈ events := by
  have replayed : events.foldl ConfigMapEvent.update ∅ =
      KeyedWrite.replay ∅ (events.filterMap ConfigMapEvent.write?) :=
    KeyedWrite.foldl_eq_replay id update_eq_perform ∅ events
  rw [Existing, replayed] at present
  rcases List.mem_filterMap.mp (KeyedWrite.mem_of_lookup_replay present) with
    ⟨event, member, write⟩
  cases event with
  | apply other =>
      simp only [ConfigMapEvent.write?, Option.some.injEq, KeyedWrite.mk.injEq] at write
      rw [← write.2]
      exact member
  | delete other => simp [ConfigMapEvent.write?] at write
  | resync cmList => cases write

section Histories

variable (fromStr : String → Option Yaml)

/-- Sending no routes is like sending an empty list of them. -/
theorem routeWrites_sendUnlessEmpty (routes : List EnvoyRoute) :
    (operationsOf (if routes = [] then []
      else [.sendEnvoyRoutes (ClusterAggregator.sendEnvoyRoutes routes)])).filterMap
        Operation.routeWrite? = routes.map EnvoyRoute.write := by
  split
  · rename_i none
    rw [none]
    rfl
  · exact routeWrites_sendEnvoyRoutes routes

theorem routeWrites_messages (event : ConfigMapEvent) :
    (operationsOf (event.messages fromStr)).filterMap Operation.routeWrite? =
      (event.routes fromStr).map EnvoyRoute.write := by
  cases event with
  | apply cm =>
      simp only [ConfigMapEvent.messages, ConfigMapHandler.onApply, operationsOf,
        List.flatMap_append, List.filterMap_append]
      exact (List.append_nil _).trans (routeWrites_sendUnlessEmpty (cm.envoyRoutes fromStr))
  | delete cm => rfl
  | resync cmList =>
      exact routeWrites_sendUnlessEmpty (cmList.flatMap (ConfigMap.envoyRoutes fromStr))

/-- The run lemma: the cache after a history is what the routes of its events wrote. -/
theorem envoyCache_run_messages (state : CoreState) (events : List ConfigMapEvent) :
    (state.run (events.flatMap (ConfigMapEvent.messages fromStr))).envoyCache =
      KeyedWrite.replay state.envoyCache
        ((events.flatMap (ConfigMapEvent.routes fromStr)).map EnvoyRoute.write) := by
  rw [CoreState.run_eq_foldl, CoreState.envoyCache_foldl_apply, operationsOf, List.flatMap_assoc,
    List.filterMap_flatMap, List.map_flatMap]
  congr 2
  funext event
  exact routeWrites_messages fromStr event

/-- The routes of a resync are those of an applied ConfigMap each. -/
theorem exists_apply_of_routes {events : List ConfigMapEvent}
    (listings : Run.EveryStep ConfigMapEvent.update ConfigMapEvent.Lists ∅ events)
    {event : ConfigMapEvent} (member : event ∈ events) {route : EnvoyRoute}
    (sent : route ∈ event.routes fromStr) :
    ∃ cm, .apply cm ∈ events ∧ route ∈ cm.envoyRoutes fromStr := by
  cases event with
  | apply cm => exact ⟨cm, member, sent⟩
  | delete cm => cases sent
  | resync cmList =>
      rcases List.mem_flatMap.mp sent with ⟨cm, listed, routeMem⟩
      rcases List.append_of_mem member with ⟨before, after, rfl⟩
      have lists := Run.everyStep_iff.mp listings before (.resync cmList) after rfl
      have present : Existing before cm := (lists cm).mp listed
      exact ⟨cm, List.mem_append_left _ present.apply_mem, routeMem⟩

end Histories

theorem mem_of_lookup_replay_routes {routes : List EnvoyRoute} {domain : String}
    {target : String × String}
    (found : (KeyedWrite.replay ∅ (routes.map EnvoyRoute.write)).lookup domain = some target) :
    ⟨domain, target.1, target.2⟩ ∈ routes := by
  rcases List.mem_map.mp (KeyedWrite.mem_of_lookup_replay found) with ⟨route, routeMem, write⟩
  rw [EnvoyRoute.write, KeyedWrite.mk.injEq, Option.some.injEq] at write
  rcases write with ⟨rfl, rfl⟩
  exact routeMem

/-- The routes that are sent last decide the entries of their domains. -/
theorem mem_of_lookup_replay_append {earlier latest : List EnvoyRoute} {route : EnvoyRoute}
    (routeMem : route ∈ latest) {target : String × String}
    (found : (KeyedWrite.replay ∅ ((earlier ++ latest).map EnvoyRoute.write)).lookup
      route.domain = some target) :
    ⟨route.domain, target.1, target.2⟩ ∈ latest := by
  rcases exists_last_routes routeMem with ⟨last, lastMem, sameDomain, isLast⟩
  rw [List.map_append, KeyedWrite.lookup_replay, KeyedWrite.last_append, isLast, Option.some_or,
    Option.map_some, Option.getD_some, EnvoyRoute.write, Option.some.injEq] at found
  rw [← found, ← sameDomain]
  exact lastMem

/--
After a final resync the Envoy cache follows the ConfigMaps exactly when every domain that an
applied ConfigMap had a route for is one that an existing ConfigMap has a route for.
-/
theorem followsConfigMaps_iff (fromStr : String → Option Yaml) (state : CoreState)
    (unrouted : state.envoyCache = ∅) (events : List ConfigMapEvent) (cmList : List ConfigMap)
    (listings : Run.EveryStep ConfigMapEvent.update ConfigMapEvent.Lists ∅
      (events ++ [.resync cmList])) :
    FollowsConfigMaps fromStr events (state.run
        ((events ++ [ConfigMapEvent.resync cmList]).flatMap
          (ConfigMapEvent.messages fromStr))) ↔
      ∀ applied, .apply applied ∈ events → ∀ route ∈ applied.envoyRoutes fromStr,
        ∃ cm, Existing events cm ∧ ∃ other ∈ cm.envoyRoutes fromStr,
          other.domain = route.domain := by
  have listed : ∀ cm, cm ∈ cmList ↔ Existing events cm :=
    Run.everyStep_iff.mp listings events (.resync cmList) [] rfl
  have routes : (events ++ [ConfigMapEvent.resync cmList]).flatMap
      (ConfigMapEvent.routes fromStr) =
        events.flatMap (ConfigMapEvent.routes fromStr) ++
          cmList.flatMap (ConfigMap.envoyRoutes fromStr) := by
    rw [List.flatMap_append, List.flatMap_singleton]
    rfl
  rw [FollowsConfigMaps, envoyCache_run_messages, unrouted, routes]
  constructor
  · intro follows applied appliedMem route routeMem
    have sent : route ∈ events.flatMap (ConfigMapEvent.routes fromStr) ++
        cmList.flatMap (ConfigMap.envoyRoutes fromStr) :=
      List.mem_append_left _ (List.mem_flatMap.mpr ⟨.apply applied, appliedMem, routeMem⟩)
    rcases exists_last_routes sent with ⟨last, -, -, isLast⟩
    have found : (KeyedWrite.replay ∅ ((events.flatMap (ConfigMapEvent.routes fromStr) ++
        cmList.flatMap (ConfigMap.envoyRoutes fromStr)).map EnvoyRoute.write)).lookup
          route.domain = some (last.serviceName, last.ns) := by
      rw [KeyedWrite.lookup_replay, isLast]
      rfl
    rcases follows route.domain _ found with ⟨cm, present, otherMem⟩
    exact ⟨cm, present, _, otherMem, rfl⟩
  · intro covered domain target found
    -- the final resync wrote the entry, since it has a route for every domain ever sent
    have resent : ∃ route ∈ cmList.flatMap (ConfigMap.envoyRoutes fromStr),
        route.domain = domain := by
      have sent := mem_of_lookup_replay_routes found
      rw [← routes] at sent
      rcases List.mem_flatMap.mp sent with ⟨event, eventMem, routeMem⟩
      rcases exists_apply_of_routes fromStr listings eventMem routeMem with
        ⟨applied, appliedMem, appliedRoute⟩
      have earlier : ConfigMapEvent.apply applied ∈ events := by simpa using appliedMem
      rcases covered applied earlier _ appliedRoute with ⟨cm, present, other, otherMem, same⟩
      exact ⟨other, List.mem_flatMap.mpr ⟨cm, (listed cm).mpr present, otherMem⟩, same⟩
    rcases resent with ⟨route, routeMem, rfl⟩
    rcases List.mem_flatMap.mp (mem_of_lookup_replay_append routeMem found) with
      ⟨cm, cmMem, latest⟩
    exact ⟨cm, (listed cm).mp cmMem, latest⟩

/-- A ConfigMap with an Envoy config is applied and deleted, and nothing is left to resync. -/
def envoyConfigMap : ConfigMap where
  metadata := { uid := some "1", name := some "envoy-config", ns := some "default", labels := none }
  data := some (Finmap.singleton "envoy.yaml" portConfigText)

def deletedConfigMap : List ConfigMapEvent :=
  [.apply envoyConfigMap, .delete envoyConfigMap]

theorem envoyRoutes_envoyConfigMap :
    envoyConfigMap.envoyRoutes readPortConfig =
      [⟨"api.prod.svc.cluster.local", "api", "prod"⟩, ⟨"api.prod.int:8080", "api", "prod"⟩] :=
  parseEnvoyRoutes_portConfig

theorem not_existing_deletedConfigMap (cm : ConfigMap) : ¬Existing deletedConfigMap cm := by
  have deleted : deletedConfigMap.foldl ConfigMapEvent.update ∅ = ∅ := by decide +kernel
  rw [Existing, deleted, Finmap.lookup_empty]
  exact (Option.some_ne_none cm).symm

theorem listings_deletedConfigMap :
    Run.EveryStep ConfigMapEvent.update ConfigMapEvent.Lists ∅
      (deletedConfigMap ++ [.resync []]) :=
  ⟨trivial, trivial, fun cm => iff_of_false List.not_mem_nil (not_existing_deletedConfigMap cm),
    trivial⟩

theorem followsConfigMaps_deletedConfigMap_iff :
    FollowsConfigMaps readPortConfig deletedConfigMap (CoreState.empty.run
        ((deletedConfigMap ++ [ConfigMapEvent.resync []]).flatMap
          (ConfigMapEvent.messages readPortConfig))) ↔
      ∀ applied, .apply applied ∈ deletedConfigMap →
        ∀ route ∈ applied.envoyRoutes readPortConfig,
          ∃ cm, Existing deletedConfigMap cm ∧ ∃ other ∈ cm.envoyRoutes readPortConfig,
            other.domain = route.domain :=
  followsConfigMaps_iff readPortConfig CoreState.empty rfl deletedConfigMap []
    listings_deletedConfigMap

theorem exists_stale_route :
    ∃ (fromStr : String → Option Yaml) (events : List ConfigMapEvent) (cmList : List ConfigMap),
      Run.EveryStep ConfigMapEvent.update ConfigMapEvent.Lists ∅ (events ++ [.resync cmList]) ∧
        ¬FollowsConfigMaps fromStr events (CoreState.empty.run
          ((events ++ [ConfigMapEvent.resync cmList]).flatMap
            (ConfigMapEvent.messages fromStr))) := by
  refine ⟨readPortConfig, deletedConfigMap, [], listings_deletedConfigMap, fun follows => ?_⟩
  have stale : (CoreState.empty.run ((deletedConfigMap ++ [ConfigMapEvent.resync []]).flatMap
      (ConfigMapEvent.messages readPortConfig))).envoyCache.lookup "api.prod.int:8080" =
        some ("api", "prod") := by
    rw [envoyCache_run_messages]
    simp only [deletedConfigMap, List.cons_append, List.nil_append, List.flatMap_cons,
      List.flatMap_nil, ConfigMapEvent.routes, envoyRoutes_envoyConfigMap, List.append_nil]
    decide +kernel
  rcases follows _ _ stale with ⟨cm, present, -⟩
  exact not_existing_deletedConfigMap cm present

end Qubit.Agent
