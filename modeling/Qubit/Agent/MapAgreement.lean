import Qubit.Agent.PodNames
import Qubit.Agent.Resync

/-!
# Two descriptions of one pod

The bulk map describes a pod by the service that selects it: under the namespace of
the service, and by the last one listed if there are several. The incremental path
describes it under its own namespace, and by the selecting service that comes first
in the registry's hash map. Both describe a pod alike, in whatever order the registry
is listed, exactly when the last selecting service lies in the namespace of the pod
and all others have its name and type.
-/

namespace Qubit.Agent

/-- A service that selects a pod. -/
structure SelectingService where
  ns : String
  name : String
  serviceType : String
deriving DecidableEq, Repr

/-- What the map announces for a pod that the service selects. -/
def SelectingService.mapInfo (service : SelectingService) : PodInfo where
  ns := service.ns
  applicationName := service.name
  serviceName := service.name
  serviceType := service.serviceType

def selectingService? (pod : Pod) (service : Service) : Option SelectingService :=
  service.registration?.bind fun entry =>
    if Selects entry.2.selector pod.metadata.labels then
      some
        { ns := service.metadata.ns.getD "", name := entry.2.name,
          serviceType := entry.2.serviceType }
    else none

/-- The services that select a pod, in the order of the cluster's list. -/
def selectingServices (services : List Service) (pod : Pod) : List SelectingService :=
  services.filterMap (selectingService? pod)

/-- The registry holds exactly the services of the list that are registered. -/
def ServiceRegistry.Holds (registry : ServiceRegistry) (services : List Service) : Prop :=
  ∀ key registered, registry.lookup key = some registered ↔
    ∃ service ∈ services, service.registration? = some (key, registered)

/-- No two services are registered under one key. -/
def DistinctKeys (services : List Service) : Prop :=
  services.Pairwise fun service other =>
    ∀ entry ∈ service.registration?, ∀ otherEntry ∈ other.registration?, otherEntry.1 ≠ entry.1

instance (services : List Service) : Decidable (DistinctKeys services) :=
  inferInstanceAs (Decidable (services.Pairwise _))

/-- Registering services of different keys makes the registry hold exactly these. -/
theorem DistinctKeys.holds {services : List Service} (distinct : DistinctKeys services) :
    (ServiceRegistry.after (services.map ServiceRegistry.Call.register)).Holds services := by
  intro key registered
  rw [ServiceRegistry.lookup_after_iff]
  constructor
  · rintro ⟨before, service, later, split, registers, -⟩
    have member : ServiceRegistry.Call.register service ∈
        services.map ServiceRegistry.Call.register := by
      rw [split]
      exact List.mem_append_right _ List.mem_cons_self
    rcases List.mem_map.mp member with ⟨listed, listedMem, same⟩
    rw [ServiceRegistry.Call.register.injEq] at same
    rw [← same] at registers
    exact ⟨listed, listedMem, registers⟩
  · rintro ⟨service, serviceMem, registers⟩
    rcases List.append_of_mem serviceMem with ⟨before, later, rfl⟩
    refine ⟨before.map ServiceRegistry.Call.register, service,
      later.map ServiceRegistry.Call.register, by simp, registers, ?_⟩
    have laterApart := (List.pairwise_cons.mp (List.pairwise_append.mp distinct).2.1).1
    intro call callMem write writeMem
    rcases List.mem_map.mp callMem with ⟨other, otherMem, rfl⟩
    rcases Option.map_eq_some_iff.mp writeMem with ⟨entry, otherRegisters, rfl⟩
    exact laterApart other otherMem _ registers entry otherRegisters

theorem podServiceEntry_eq (pods : List Pod) (service : Service) :
    podServiceEntry pods service =
      service.registration?.bind fun entry =>
        let podIps := (pods.filter fun pod =>
          Selects entry.2.selector pod.metadata.labels).filterMap PodHandler.podIp
        if podIps ≠ [] then
          some (entry.2.name, service.metadata.ns.getD "", entry.2.serviceType, podIps)
        else none := by
  unfold podServiceEntry Service.registration?
  cases service.metadata.name with
  | none => rfl
  | some name =>
      cases service.spec with
      | none => rfl
      | some spec =>
          by_cases selectorless : spec.selector.getD ∅ = ∅
          · simp [selectorless]
          · simp [selectorless]

/-- No two pods have the same IP. -/
def DistinctIps (pods : List Pod) : Prop :=
  pods.Pairwise fun pod other =>
    PodHandler.podIp pod ≠ none → PodHandler.podIp other ≠ PodHandler.podIp pod

instance (pods : List Pod) : Decidable (DistinctIps pods) :=
  inferInstanceAs (Decidable (pods.Pairwise _))

theorem DistinctIps.eq_of_podIp_eq {pods : List Pod} (distinct : DistinctIps pods)
    {pod other : Pod} (podMem : pod ∈ pods) (otherMem : other ∈ pods) {ip : String}
    (carries : PodHandler.podIp pod = some ip) (otherCarries : PodHandler.podIp other = some ip) :
    other = pod := by
  by_contra different
  have symmetric : Std.Symm fun pod other : Pod =>
      PodHandler.podIp pod ≠ none → PodHandler.podIp other ≠ PodHandler.podIp pod := by
    refine ⟨fun left right apart rightHasIp same => ?_⟩
    rw [← same] at rightHasIp
    exact apart rightHasIp same.symm
  refine List.Pairwise.forall distinct podMem otherMem (Ne.symm different) ?_ ?_
  · simp [carries]
  · rw [carries, otherCarries]

/-- The IP of a pod occurs among the pods with a property exactly when the pod has it. -/
theorem DistinctIps.mem_filterMap_podIp_iff {pods : List Pod} (distinct : DistinctIps pods)
    {pod : Pod} (podMem : pod ∈ pods) {ip : String} (carries : PodHandler.podIp pod = some ip)
    {property : Pod → Prop} [DecidablePred property] :
    ip ∈ (pods.filter fun other => property other).filterMap PodHandler.podIp ↔ property pod := by
  simp only [List.mem_filterMap, List.mem_filter, decide_eq_true_eq]
  constructor
  · rintro ⟨other, ⟨otherMem, holds⟩, otherCarries⟩
    rwa [distinct.eq_of_podIp_eq podMem otherMem carries otherCarries] at holds
  · intro holds
    exact ⟨pod, ⟨podMem, holds⟩, carries⟩

section Snapshot

variable {services : List Service} {pods : List Pod} {pod : Pod} {ip : String}

theorem writesOf_eq (pods : List Pod) (service : Service) :
    writesOf pods service = service.registration?.elim [] fun entry =>
      ((pods.filter fun pod =>
        Selects entry.2.selector pod.metadata.labels).filterMap PodHandler.podIp).map fun ip =>
          { key := ip
            value := some (SelectingService.mapInfo
              ⟨service.metadata.ns.getD "", entry.2.name, entry.2.serviceType⟩) } := by
  rw [writesOf, podServiceEntry_eq]
  cases service.registration? with
  | none => rfl
  | some entry =>
      dsimp only [Option.bind_some, Option.elim_some]
      generalize (pods.filter fun pod =>
        Selects entry.2.selector pod.metadata.labels).filterMap PodHandler.podIp = podIps
      cases podIps with
      | nil => rfl
      | cons ip rest => rfl

theorem last_writesOf (distinct : DistinctIps pods) (podMem : pod ∈ pods)
    (carries : PodHandler.podIp pod = some ip) (service : Service) :
    KeyedWrite.last ip (writesOf pods service) =
      (selectingService? pod service).map fun selecting =>
        { key := ip, value := some selecting.mapInfo } := by
  rw [writesOf_eq, selectingService?]
  cases service.registration? with
  | none => rfl
  | some entry =>
      have covered : ip ∈ (pods.filter fun other =>
          Selects entry.2.selector other.metadata.labels).filterMap PodHandler.podIp ↔
          Selects entry.2.selector pod.metadata.labels :=
        distinct.mem_filterMap_podIp_iff podMem carries
      rw [Option.elim_some, KeyedWrite.last_map, Option.bind_some]
      by_cases selects : Selects entry.2.selector pod.metadata.labels
      · rw [if_pos (covered.mpr selects), if_pos selects]
        rfl
      · rw [if_neg (mt covered.mp selects), if_neg selects]
        rfl

/-- After the map the cache has what the last selecting service says of the pod. -/
theorem lookup_sendInitialPodServiceMap (state : CoreState) (distinct : DistinctIps pods)
    (podMem : pod ∈ pods) (carries : PodHandler.podIp pod = some ip) :
    (state.run [.sendServicePodMap (sendInitialPodServiceMap services pods)]).podCache.lookup ip =
      ((selectingServices services pod).getLast?.map SelectingService.mapInfo).or
        (state.podCache.lookup ip) := by
  have writes : (services.filterMap fun service => KeyedWrite.last ip (writesOf pods service)) =
      (selectingServices services pod).map fun selecting =>
        { key := ip, value := some selecting.mapInfo } := by
    rw [selectingServices, List.map_filterMap]
    congr 1
    funext service
    exact last_writesOf distinct podMem carries service
  rw [podCache_sendInitialPodServiceMap, KeyedWrite.lookup_replay, KeyedWrite.last_flatMap,
    writes, List.getLast?_map]
  cases (selectingServices services pod).getLast? with
  | none => rfl
  | some selecting => rfl

/-- The IP of a pod occurs in the map exactly when some service selects the pod. -/
theorem mem_sendInitialPodServiceMap_iff (distinct : DistinctIps pods) (podMem : pod ∈ pods)
    (carries : PodHandler.podIp pod = some ip) :
    (∃ entry ∈ (sendInitialPodServiceMap services pods).entries, ip ∈ entry.podIps) ↔
      selectingServices services pod ≠ [] := by
  have covers : ∀ service, Covers pods ip service ↔ selectingService? pod service ≠ none := by
    intro service
    rw [← not_iff_not, ← last_writesOf_eq_none_iff, last_writesOf distinct podMem carries,
      Option.map_eq_none_iff, not_not]
  simp only [ne_eq, selectingServices, List.filterMap_eq_nil_iff, not_forall, exists_prop, ← covers]
  constructor
  · rintro ⟨entry, entryMem, ipMem⟩
    rcases List.mem_map.mp entryMem with ⟨sent, sentMem, rfl⟩
    rcases List.mem_filterMap.mp sentMem with ⟨service, serviceMem, sends⟩
    exact ⟨service, serviceMem, ((podServiceEntry_eq_some sends).2 ip).mp ipMem⟩
  · rintro ⟨service, serviceMem, covered⟩
    cases sends : podServiceEntry pods service with
    | none => exact absurd covered (podServiceEntry_eq_none sends ip)
    | some sent =>
        refine ⟨_, List.mem_map_of_mem (List.mem_filterMap.mpr ⟨service, serviceMem, sends⟩), ?_⟩
        exact ((podServiceEntry_eq_some sends).2 ip).mpr covered

theorem mem_selectingServices {selecting : SelectingService} :
    selecting ∈ selectingServices services pod ↔
      ∃ service ∈ services, ∃ key registered,
        service.registration? = some (key, registered) ∧
          Selects registered.selector pod.metadata.labels ∧
          selecting = ⟨service.metadata.ns.getD "", registered.name, registered.serviceType⟩ := by
  simp only [selectingServices, List.mem_filterMap, selectingService?, Option.bind_eq_some_iff,
    Option.ite_none_right_eq_some, Option.some.injEq, Prod.exists, eq_comm (a := selecting)]

theorem ServiceRegistry.Holds.mem_selectingServices {registry : ServiceRegistry}
    (holds : registry.Holds services) {key : String} {registered : RegisteredService}
    (held : registry.lookup key = some registered)
    (selects : Selects registered.selector pod.metadata.labels) :
    ∃ selecting ∈ selectingServices services pod, selecting.name = registered.name ∧
      selecting.serviceType = registered.serviceType := by
  rcases (holds key registered).mp held with ⟨service, serviceMem, registers⟩
  exact ⟨_, Agent.mem_selectingServices.mpr ⟨service, serviceMem, key, registered, registers,
    selects, rfl⟩, rfl, rfl⟩

theorem podInfo_of_found {order : AList fun _ : String => RegisteredService}
    {name serviceType : String}
    (found : ServiceRegistry.findServiceForPod order pod = some (name, serviceType)) :
    PodHandler.podInfo order pod =
      { ns := pod.metadata.ns.getD ""
        applicationName := PodHandler.resolveApplicationName pod name
        serviceName := name
        serviceType } := by
  rw [PodHandler.podInfo, found]
  rfl

/-- Each selecting service is what the incremental path finds in some listing of the registry. -/
theorem exists_listing_podInfo {registry : ServiceRegistry} (holds : registry.Holds services)
    {selecting : SelectingService} (member : selecting ∈ selectingServices services pod) :
    ∃ order : AList fun _ : String => RegisteredService, order.toFinmap = registry ∧
      PodHandler.podInfo order pod =
        { ns := pod.metadata.ns.getD ""
          applicationName := PodHandler.resolveApplicationName pod selecting.name
          serviceName := selecting.name
          serviceType := selecting.serviceType } := by
  rcases mem_selectingServices.mp member with
    ⟨service, serviceMem, key, registered, registers, selects, rfl⟩
  have held := (holds key registered).mpr ⟨service, serviceMem, registers⟩
  have labelled := selects.labels_ne_none (ServiceRegistry.of_registration? registers).2.1
  rcases ServiceRegistry.exists_listing_find labelled held selects with ⟨order, listing, found⟩
  exact ⟨order, listing, podInfo_of_found found⟩

/-- In every listing the incremental path finds one of the selecting services, if there is one. -/
theorem podInfo_of_listing {registry : ServiceRegistry} (holds : registry.Holds services)
    {order : AList fun _ : String => RegisteredService} (listing : order.toFinmap = registry)
    (selected : selectingServices services pod ≠ []) :
    ∃ selecting ∈ selectingServices services pod,
      PodHandler.podInfo order pod =
        { ns := pod.metadata.ns.getD ""
          applicationName := PodHandler.resolveApplicationName pod selecting.name
          serviceName := selecting.name
          serviceType := selecting.serviceType } := by
  cases found : ServiceRegistry.findServiceForPod order pod with
  | some service =>
      rcases ServiceRegistry.findServiceForPod_eq_some found with
        ⟨key, registered, held, selects, name, serviceType⟩
      rw [listing] at held
      rcases holds.mem_selectingServices held selects with
        ⟨selecting, member, sameName, sameType⟩
      refine ⟨selecting, member, ?_⟩
      rw [podInfo_of_found found, sameName, sameType, name, serviceType]
  | none =>
      rcases List.exists_mem_of_ne_nil _ selected with ⟨selecting, member⟩
      rcases mem_selectingServices.mp member with
        ⟨service, serviceMem, key, registered, registers, selects, -⟩
      have held := (holds key registered).mpr ⟨service, serviceMem, registers⟩
      rw [← listing] at held
      exact absurd found (ServiceRegistry.findServiceForPod_ne_none held
        (ServiceRegistry.of_registration? registers).2.1 selects)

end Snapshot

/--
The map and the incremental path leave the same entry for every pod of the map, in every listing
of the registry, exactly when the last service that selects the pod lies in its namespace and every
other one has the same name and type.
-/
theorem mapAgrees_iff (state : CoreState) (services : List Service) (pods : List Pod)
    (registry : ServiceRegistry) (holds : registry.Holds services)
    (distinct : DistinctIps pods) :
    (∀ order : AList fun _ : String => RegisteredService, order.toFinmap = registry →
      ∀ pod ∈ pods, ∀ ip, PodHandler.podIp pod = some ip →
        (∃ entry ∈ (sendInitialPodServiceMap services pods).entries, ip ∈ entry.podIps) →
          (state.run
            [.sendServicePodMap (sendInitialPodServiceMap services pods)]).podCache.lookup ip =
          (deliver state (messagesOf [.apply pod order])).podCache.lookup ip) ↔
      ∀ pod ∈ pods, PodHandler.podIp pod ≠ none →
        ∀ last ∈ (selectingServices services pod).getLast?,
          last.ns = pod.metadata.ns.getD "" ∧
            PodHandler.resolveApplicationName pod last.name = last.name ∧
            ∀ other ∈ selectingServices services pod,
              other.name = last.name ∧ other.serviceType = last.serviceType := by
  constructor
  · intro agrees pod podMem hasIp last isLast
    rcases Option.ne_none_iff_exists'.mp hasIp with ⟨ip, carries⟩
    have selected : selectingServices services pod ≠ [] := by
      rintro none
      simp [none] at isLast
    have same : ∀ other ∈ selectingServices services pod, last.mapInfo =
        { ns := pod.metadata.ns.getD ""
          applicationName := PodHandler.resolveApplicationName pod other.name
          serviceName := other.name
          serviceType := other.serviceType } := by
      intro other otherMem
      rcases exists_listing_podInfo holds otherMem with ⟨order, listing, info⟩
      have entries := agrees order listing pod podMem ip carries
        ((mem_sendInitialPodServiceMap_iff distinct podMem carries).mpr selected)
      rw [lookup_sendInitialPodServiceMap state distinct podMem carries,
        podCache_lookup_deliver_apply state order carries, info, Option.mem_def.mp isLast,
        Option.map_some, Option.some_or, Option.some.injEq] at entries
      exact entries
    simp only [SelectingService.mapInfo, PodInfo.mk.injEq] at same
    have lastSame := same last (List.mem_of_getLast? isLast)
    refine ⟨lastSame.1, lastSame.2.1.symm, fun other otherMem => ?_⟩
    exact ⟨(same other otherMem).2.2.1.symm, (same other otherMem).2.2.2.symm⟩
  · intro alike order listing pod podMem ip carries inMap
    have selected := (mem_sendInitialPodServiceMap_iff distinct podMem carries).mp inMap
    rcases podInfo_of_listing holds listing selected with ⟨selecting, member, info⟩
    have isLast := List.getLast?_eq_some_getLast selected
    rcases alike pod podMem (by simp [carries]) _ isLast with ⟨sameNs, ownName, others⟩
    rcases others selecting member with ⟨sameName, sameType⟩
    rw [lookup_sendInitialPodServiceMap state distinct podMem carries,
      podCache_lookup_deliver_apply state order carries, info, isLast, sameName, sameType, ownName,
      ← sameNs]
    rfl

/-- A second service with the selector of the first one, and another type. -/
def canaryService : Service where
  metadata := { uid := some "2", name := some "canary", ns := some "default", labels := none }
  spec := some { selector := some (Finmap.singleton "app" "web"), type := some "LoadBalancer" }

open ServiceRegistry in
def selectedPod : Pod where
  metadata := { otherNamespacePod.metadata with uid := some "4", ns := some "default" }
  status := some { podIp := some "10.0.0.6" }

open ServiceRegistry in
theorem mapAgrees_twoServices_iff :
    let services := [canaryService, selectingService]
    let pods := [otherNamespacePod, selectedPod]
    (∀ order : AList fun _ : String => RegisteredService,
      order.toFinmap = ServiceRegistry.after (services.map ServiceRegistry.Call.register) →
        ∀ pod ∈ pods, ∀ ip, PodHandler.podIp pod = some ip →
          (∃ entry ∈ (sendInitialPodServiceMap services pods).entries, ip ∈ entry.podIps) →
          (CoreState.empty.run [.sendServicePodMap
            (sendInitialPodServiceMap services pods)]).podCache.lookup ip =
          (deliver CoreState.empty (messagesOf [.apply pod order])).podCache.lookup ip) ↔
      ∀ pod ∈ pods, PodHandler.podIp pod ≠ none →
        ∀ last ∈ (selectingServices services pod).getLast?,
          last.ns = pod.metadata.ns.getD "" ∧
            PodHandler.resolveApplicationName pod last.name = last.name ∧
            ∀ other ∈ selectingServices services pod,
              other.name = last.name ∧ other.serviceType = last.serviceType := by
  intro services pods
  have distinct : DistinctKeys services := by decide +kernel
  exact mapAgrees_iff CoreState.empty services pods _ distinct.holds (by decide +kernel)

/-- The one service of the example below is registered under its key. -/
theorem holds_selectingService :
    (ServiceRegistry.after [.register selectingService]).Holds [selectingService] := by
  have distinct : DistinctKeys [selectingService] := by decide +kernel
  exact distinct.holds

open ServiceRegistry in
theorem exists_map_disagrees :
    ∃ (services : List Service) (pods : List Pod) (registry : ServiceRegistry)
      (order : AList fun _ : String => RegisteredService) (pod : Pod) (ip : String),
      DistinctKeys services ∧ DistinctIps pods ∧ registry.Holds services ∧
        order.toFinmap = registry ∧ pod ∈ pods ∧ PodHandler.podIp pod = some ip ∧
        (∃ entry ∈ (sendInitialPodServiceMap services pods).entries, ip ∈ entry.podIps) ∧
        (CoreState.empty.run
            [.sendServicePodMap (sendInitialPodServiceMap services pods)]).podCache.lookup ip ≠
          (deliver CoreState.empty (messagesOf [.apply pod order])).podCache.lookup ip :=
  ⟨[selectingService], [otherNamespacePod], ServiceRegistry.after [.register selectingService],
    AList.singleton "default/web"
      { name := "web", serviceType := "ClusterIP", selector := Finmap.singleton "app" "web" },
    otherNamespacePod, "10.0.0.5", by decide +kernel, by decide +kernel,
    holds_selectingService, by decide +kernel,
    by decide +kernel, by decide +kernel, by decide +kernel, by decide +kernel⟩

end Qubit.Agent
