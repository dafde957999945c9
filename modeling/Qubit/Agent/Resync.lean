import Qubit.Agent.PodHandler

/-!
# The resync of a restarted Core

The agent sends the whole map from services to pod IPs at its start and every thirty
seconds, since in watch mode it does not replay the pods that exist. The map has an
entry for each service that selects a pod with an IP, under the service's name. The
incremental path covers more pods: one that no service selects is sent with a name
from its labels or with its own. A resync restores every named entry of the
incremental path exactly when each IP of a named pod is covered by a service.
-/

namespace Qubit.Agent

namespace ClusterAggregator

/-- The map is sent with the service names as application names. -/
def sendServicePodMap (entries : List (String × String × String × List String)) :
    ServicePodMapRequest where
  entries := entries.map fun (serviceName, ns, serviceType, podIps) =>
    { serviceName, ns, serviceType, podIps, applicationName := serviceName }

end ClusterAggregator

/-- The entry of a service: the IPs of all pods, of any namespace, that it selects. -/
def podServiceEntry (pods : List Pod) (service : Service) :
    Option (String × String × String × List String) :=
  match service.metadata.name with
  | none => none
  | some name =>
      let ns := service.metadata.ns.getD ""
      match service.spec with
      | none => none
      | some spec =>
          let selector := spec.selector.getD ∅
          if selector = ∅ then none
          else
            let serviceType := spec.type.getD "ClusterIP"
            let podIps :=
              (pods.filter fun pod => Selects selector pod.metadata.labels).filterMap
                PodHandler.podIp
            if podIps ≠ [] then some (name, ns, serviceType, podIps) else none

def sendInitialPodServiceMap (services : List Service) (pods : List Pod) :
    ServicePodMapRequest :=
  ClusterAggregator.sendServicePodMap (services.filterMap (podServiceEntry pods))

def resync (services : List Service) (pods : List Pod) : CoreState :=
  CoreState.empty.run [.sendServicePodMap (sendInitialPodServiceMap services pods)]

/-- Core after the incremental path has sent every pod, with the registry listed in an order. -/
def applyAll (registry : AList fun _ : String => RegisteredService) (pods : List Pod) :
    CoreState :=
  deliver CoreState.empty (messagesOf (pods.map fun pod => .apply pod registry))

/-- The service has a name and a selector, and it selects some pod with the IP. -/
def Covers (pods : List Pod) (ip : String) (service : Service) : Prop :=
  service.metadata.name ≠ none ∧
    ∃ spec ∈ service.spec, spec.selector.getD ∅ ≠ ∅ ∧
      ∃ pod ∈ pods, Selects (spec.selector.getD ∅) pod.metadata.labels ∧
        PodHandler.podIp pod = some ip

instance (pods : List Pod) (ip : String) : DecidablePred (Covers pods ip) :=
  fun _ => inferInstanceAs (Decidable (_ ∧ ∃ _ ∈ _, _))

/-- The item is the last one of the list with the property. -/
def LastWith {A : Type} (property : A → Prop) (items : List A) (item : A) : Prop :=
  ∃ before after, items = before ++ item :: after ∧ property item ∧
    ∀ later ∈ after, ¬property later

/-! ## The request as writes -/

/-- The writes that the entry of a service performs. -/
def writesOf (pods : List Pod) (service : Service) : List (KeyedWrite String PodInfo) :=
  match podServiceEntry pods service with
  | none => []
  | some (name, ns, serviceType, podIps) =>
      podIps.map fun ip =>
        { key := ip
          value := some { ns, applicationName := name, serviceName := name, serviceType } }

theorem podCache_sendServicePodMap (state : CoreState) (request : ServicePodMapRequest) :
    (state.run [.sendServicePodMap request]).podCache =
      KeyedWrite.replay state.podCache (request.entries.flatMap fun entry =>
        entry.podIps.map fun ip => { key := ip, value := some entry.podInfo }) := by
  rw [CoreState.podCache_run, operationsOf, List.flatMap_singleton, Request.operations,
    List.filterMap_flatMap]
  congr 2
  funext entry
  rw [List.filterMap_map]
  exact congrFun List.filterMap_eq_map' entry.podIps

theorem podCache_sendInitialPodServiceMap (state : CoreState) (services : List Service)
    (pods : List Pod) :
    (state.run [.sendServicePodMap (sendInitialPodServiceMap services pods)]).podCache =
      KeyedWrite.replay state.podCache (services.flatMap (writesOf pods)) := by
  rw [podCache_sendServicePodMap, sendInitialPodServiceMap,
    ClusterAggregator.sendServicePodMap, List.flatMap_map, List.filterMap_eq_flatMap_toList,
    List.flatMap_assoc]
  congr 2
  funext service
  unfold writesOf
  cases podServiceEntry pods service with
  | none => rfl
  | some entry => exact List.flatMap_singleton ..

theorem podServiceEntry_eq_some {pods : List Pod} {service : Service}
    {entry : String × String × String × List String}
    (sent : podServiceEntry pods service = some entry) :
    service.metadata.name = some entry.1 ∧
      ∀ ip, ip ∈ entry.2.2.2 ↔ Covers pods ip service := by
  unfold podServiceEntry at sent
  cases named : service.metadata.name with
  | none => simp [named] at sent
  | some name =>
      cases specified : service.spec with
      | none => simp [named, specified] at sent
      | some spec =>
          simp only [named, specified, Option.ite_none_left_eq_some,
            Option.ite_none_right_eq_some, Option.some.injEq] at sent
          rcases sent with ⟨selecting, -, rfl⟩
          refine ⟨rfl, fun ip => ?_⟩
          simp [Covers, named, specified, selecting, and_assoc]

theorem podServiceEntry_eq_none {pods : List Pod} {service : Service}
    (unsent : podServiceEntry pods service = none) (ip : String) : ¬Covers pods ip service := by
  rintro ⟨named, spec, specified, selecting, pod, podMem, selects, carries⟩
  rcases Option.ne_none_iff_exists'.mp named with ⟨name, isName⟩
  rw [Option.mem_def] at specified
  have member : ip ∈ (pods.filter fun pod =>
      Selects (spec.selector.getD ∅) pod.metadata.labels).filterMap PodHandler.podIp :=
    List.mem_filterMap.mpr ⟨pod, List.mem_filter.mpr ⟨podMem, decide_eq_true selects⟩, carries⟩
  simp only [podServiceEntry, isName, specified, if_neg selecting] at unsent
  rw [if_pos (List.ne_nil_of_mem member)] at unsent
  cases unsent

theorem last_writesOf_eq_none_iff {pods : List Pod} {service : Service} {ip : String} :
    KeyedWrite.last ip (writesOf pods service) = none ↔ ¬Covers pods ip service := by
  rw [KeyedWrite.last_eq_none_iff, writesOf]
  cases sent : podServiceEntry pods service with
  | none => simp [podServiceEntry_eq_none sent ip]
  | some entry =>
      rw [← (podServiceEntry_eq_some sent).2 ip]
      simp only [List.forall_mem_map]
      constructor
      · intro unwritten member
        exact unwritten ip member rfl
      · rintro absent other member rfl
        exact absent member

theorem of_last_writesOf {pods : List Pod} {service : Service} {ip : String}
    {write : KeyedWrite String PodInfo}
    (last : KeyedWrite.last ip (writesOf pods service) = some write) :
    Covers pods ip service ∧
      ∃ info, write.value = some info ∧ service.metadata.name = some info.applicationName := by
  rw [writesOf] at last
  cases sent : podServiceEntry pods service with
  | none =>
      rw [sent] at last
      cases last
  | some entry =>
      rw [sent] at last
      rcases KeyedWrite.last_map_eq_some_iff.mp last with ⟨member, rfl⟩
      rcases podServiceEntry_eq_some sent with ⟨name, covered⟩
      exact ⟨(covered ip).mp member, _, rfl, name⟩

/-! ## Named entries -/

theorem knowsPod_resync_iff {services : List Service} {pods : List Pod} {ip : String} :
    (resync services pods).KnowsPod ip ↔
      ∃ service, LastWith (Covers pods ip) services service ∧
        service.metadata.name ≠ some "" := by
  simp only [CoreState.KnowsPod, resync, podCache_sendInitialPodServiceMap,
    KeyedWrite.lookup_replay, CoreState.empty, Finmap.lookup_empty]
  constructor
  · rintro ⟨info, found, named⟩
    cases last : KeyedWrite.last ip (services.flatMap (writesOf pods)) with
    | none => simp [last] at found
    | some write =>
        rcases KeyedWrite.last_flatMap_eq_some_iff.mp last with
          ⟨before, service, after, split, writes, unwritten⟩
        rcases of_last_writesOf writes with ⟨covers, written, value, name⟩
        refine ⟨service, ⟨before, after, split, covers, fun later member =>
          last_writesOf_eq_none_iff.mp (unwritten later member)⟩, ?_⟩
        have same : written = info := by
          simpa [last, value] using found
        rw [name, same]
        simpa using named
  · rintro ⟨service, ⟨before, after, split, covers, uncovered⟩, named⟩
    cases writes : KeyedWrite.last ip (writesOf pods service) with
    | none => exact absurd covers (last_writesOf_eq_none_iff.mp writes)
    | some write =>
        rcases of_last_writesOf writes with ⟨-, info, value, name⟩
        have last : KeyedWrite.last ip (services.flatMap (writesOf pods)) = some write :=
          KeyedWrite.last_flatMap_eq_some_iff.mpr ⟨before, service, after, split, writes,
            fun later member => last_writesOf_eq_none_iff.mpr (uncovered later member)⟩
        refine ⟨info, by simp [last, value], ?_⟩
        rw [name] at named
        simpa using named

theorem knowsPod_applyAll_iff {registry : AList fun _ : String => RegisteredService}
    {pods : List Pod} {ip : String} :
    (applyAll registry pods).KnowsPod ip ↔
      ∃ pod, LastWith (fun pod => PodHandler.podIp pod = some ip) pods pod ∧
        (PodHandler.podInfo registry pod).applicationName ≠ "" := by
  have sent : ∀ pod, KeyedWrite.last ip (WatchEvent.apply pod registry).write?.toList =
      if PodHandler.podIp pod = some ip then
        some { key := ip, value := some (PodHandler.podInfo registry pod) }
      else none :=
    fun pod => last_toList_write? ip (.apply pod registry)
  have last : ∀ write, lastWrite ip (messagesOf (pods.map fun pod => .apply pod registry)) =
      some write ↔ ∃ pod, LastWith (fun pod => PodHandler.podIp pod = some ip) pods pod ∧
        write = { key := ip, value := some (PodHandler.podInfo registry pod) } := by
    intro write
    rw [lastWrite, filterMap_writeOf_messagesOf, List.filterMap_map,
      List.filterMap_eq_flatMap_toList, KeyedWrite.last_flatMap_eq_some_iff]
    simp only [Function.comp_apply, sent, Option.ite_none_right_eq_some, Option.some.injEq,
      ite_eq_right_iff, reduceCtorEq, imp_false]
    constructor
    · rintro ⟨before, pod, after, split, ⟨carries, rfl⟩, uncarried⟩
      exact ⟨pod, ⟨before, after, split, carries, uncarried⟩, rfl⟩
    · rintro ⟨pod, ⟨before, after, split, carries, uncarried⟩, rfl⟩
      exact ⟨before, pod, after, split, ⟨carries, rfl⟩, uncarried⟩
  simp only [CoreState.KnowsPod, applyAll, lookup_deliver_empty, Option.mem_def,
    Option.bind_eq_some_iff, last]
  constructor
  · rintro ⟨info, ⟨_, ⟨pod, carries, rfl⟩, value⟩, named⟩
    rw [Option.some.injEq] at value
    exact ⟨pod, carries, value ▸ named⟩
  · rintro ⟨pod, carries, named⟩
    exact ⟨_, ⟨_, ⟨pod, carries, rfl⟩, rfl⟩, named⟩

/--
A resync leaves a named entry for every IP for which the incremental path leaves one, exactly
when the last service covering the IP of a named pod exists and has a name.
-/
theorem resync_restores_iff (services : List Service) (pods : List Pod)
    (registry : AList fun _ : String => RegisteredService) :
    (∀ ip, (applyAll registry pods).KnowsPod ip → (resync services pods).KnowsPod ip) ↔
      ∀ ip pod, LastWith (fun pod => PodHandler.podIp pod = some ip) pods pod →
        (PodHandler.podInfo registry pod).applicationName ≠ "" →
          ∃ service, LastWith (Covers pods ip) services service ∧
            service.metadata.name ≠ some "" := by
  simp only [knowsPod_applyAll_iff, knowsPod_resync_iff]
  constructor
  · intro restores ip pod carries named
    exact restores ip ⟨pod, carries, named⟩
  · rintro covered ip ⟨pod, carries, named⟩
    exact covered ip pod carries named

/-- A service, and a pod that it does not select. -/
def webService : Service where
  metadata := { uid := some "1", name := some "web", ns := some "default", labels := none }
  spec := some { selector := some (Finmap.singleton "app" "web"), type := none }

def jobPod : Pod where
  metadata :=
    { uid := some "2", name := some "job-1", ns := some "default",
      labels := some (Finmap.singleton "app" "job") }
  status := some { podIp := some "10.0.0.5" }

theorem exists_not_restored :
    ∃ (services : List Service) (pods : List Pod)
      (registry : AList fun _ : String => RegisteredService) (ip : String),
      registry.toFinmap = ServiceRegistry.registerAll services ServiceRegistry.new ∧
        (applyAll registry pods).KnowsPod ip ∧ ¬(resync services pods).KnowsPod ip :=
  ⟨[webService], [jobPod],
    AList.singleton "default/web"
      { name := "web", serviceType := "ClusterIP", selector := Finmap.singleton "app" "web" },
    "10.0.0.5", by decide +kernel, by decide +kernel, by decide +kernel⟩

end Qubit.Agent
