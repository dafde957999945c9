import Qubit.Agent.Installation
import Qubit.Core.GraphOrigin

/-!
# The names that Core caches

Core learns the names of pods and of Envoy domains from the agent only, and the agent from the
items of its watches and from its listings. Messages overtake one another and get lost, and both
processes can start anew, so Core may hold a name that is out of date; but it never holds one
that the cluster has not shown. The name of a service is cached for an IP only when a pod with
this IP has labels that its selector takes.
-/

namespace Qubit.Agent

namespace Installation

/-- The pod is applied, or listed for the resync. -/
def Action.ShowsPod (pod : Pod) : Action → Prop
  | .watched (.pod (.apply shown) _) => shown = pod
  | .mapListed _ pods => pod ∈ pods
  | _ => False

def Action.ShowsService (service : Service) : Action → Prop
  | .watched (.service (.apply shown)) => shown.service = service
  | .watched (.service (.initApply shown)) => shown.service = service
  | .mapListed services _ => service ∈ services
  | _ => False

def Action.ShowsConfigMap (cm : ConfigMap) : Action → Prop
  | .watched (.configMap (.apply shown)) => shown = cm
  | .watched (.configMap (.initApply shown)) => shown = cm
  | .routesListed cmList => cm ∈ cmList
  | _ => False

variable (fromStr : String → Option Yaml) (seen : Action → Prop)

/-- A service that has been shown selects the pod, and gives it its name. -/
def NamedByService (pod : Pod) (info : PodInfo) : Prop :=
  ∃ service key registered, (∃ action, seen action ∧ action.ShowsService service) ∧
    service.registration? = some (key, registered) ∧
    Selects registered.selector pod.metadata.labels ∧
    info.serviceName = registered.name ∧ info.serviceType = registered.serviceType ∧
    (info.serviceName ≠ "" → info.applicationName = info.serviceName) ∧
    (info.ns = pod.metadata.ns.getD "" ∨ info.ns = service.metadata.ns.getD "")

/-- The pod is named by its own metadata. -/
def NamedByItself (pod : Pod) (info : PodInfo) : Prop :=
  info = { ns := pod.metadata.ns.getD ""
           applicationName := PodHandler.resolveApplicationName pod ""
           serviceName := ""
           serviceType := "" }

/-- What the operation brings to a cache has been shown. -/
def Brings : Operation → Prop
  | .podApplied ip info =>
      ∃ pod, (∃ action, seen action ∧ action.ShowsPod pod) ∧ PodHandler.podIp pod = some ip ∧
        (NamedByItself pod info ∨ NamedByService seen pod info)
  | .envoyRoute domain serviceName ns =>
      ∃ cm, (∃ action, seen action ∧ action.ShowsConfigMap cm) ∧
        ⟨domain, serviceName, ns⟩ ∈ cm.envoyRoutes fromStr
  | .ebpfEvent input => seen (.traffic input)
  | _ => True

/-- The message brings to the caches what has been shown. -/
def Message.BringsSeen (message : Message) : Prop :=
  ∀ now labels, ∀ operation ∈ ({ message, now, labels } : Receipt).request.operations,
    Brings fromStr seen operation

/-- Every registered service has been shown. -/
def RegistrySeen (services : ServiceRegistry) : Prop :=
  ∀ key registered, services.lookup key = some registered →
    ∃ service, (∃ action, seen action ∧ action.ShowsService service) ∧
      service.registration? = some (key, registered)

variable {fromStr seen}

theorem bringsSeen_resource (event : ResourceEventMessage) :
    Message.BringsSeen fromStr seen (.resource event) := by
  intro now labels operation performed
  rw [Receipt.request, Request.mem_operations_iff] at performed
  cases operation with
  | podApplied ip info => simp [Request.Performs] at performed
  | envoyRoute domain serviceName ns => simp [Request.Performs] at performed
  | ebpfEvent input => simp [Request.Performs] at performed
  | _ => exact trivial

theorem bringsSeen_request {request : Request}
    (noTraffic : ∀ input, request ≠ .sendEbpfNetworkEvent input)
    (pods : ∀ ip info, request.Performs (.podApplied ip info) →
      Brings fromStr seen (.podApplied ip info))
    (routes : ∀ domain serviceName ns, request.Performs (.envoyRoute domain serviceName ns) →
      Brings fromStr seen (.envoyRoute domain serviceName ns)) :
    Message.BringsSeen fromStr seen (.request request) := by
  intro now labels operation performed
  rw [Receipt.request, Request.mem_operations_iff] at performed
  cases operation with
  | podApplied ip info => exact pods ip info performed
  | envoyRoute domain serviceName ns => exact routes domain serviceName ns performed
  | ebpfEvent input => exact absurd performed (noTraffic input)
  | _ => exact trivial

/-- What the handler finds in a registry of shown services names the pod. -/
theorem named_podInfo {services : AList fun _ : String => RegisteredService}
    (registrySeen : RegistrySeen seen services.toFinmap) (pod : Pod) :
    NamedByItself pod (PodHandler.podInfo services pod) ∨
      NamedByService seen pod (PodHandler.podInfo services pod) := by
  cases found : ServiceRegistry.findServiceForPod services pod with
  | none =>
      left
      rw [NamedByItself, PodHandler.podInfo, found]
      rfl
  | some service =>
      right
      rcases ServiceRegistry.findServiceForPod_eq_some found with
        ⟨key, registered, held, selects, name_eq, type_eq⟩
      rcases registrySeen key registered held with ⟨shown, shownBy, registers⟩
      rw [podInfo_of_found found]
      refine ⟨shown, key, registered, shownBy, registers, selects, name_eq.symm, type_eq.symm,
        ?_, Or.inl rfl⟩
      exact fun named => if_pos named

theorem of_onApply {services : AList fun _ : String => RegisteredService} {pod : Pod}
    {req : PodEventRequest} (sent : PodHandler.onApply services pod = some req) :
    PodHandler.podIp pod = some req.podIp ∧ req.podInfo = PodHandler.podInfo services pod := by
  simp only [PodHandler.onApply, PodHandler.podIpAndNamespace] at sent
  cases carries : PodHandler.podIp pod with
  | none => simp [carries] at sent
  | some ip =>
      rw [carries] at sent
      obtain rfl := Option.some.inj sent
      exact ⟨rfl, rfl⟩

theorem bringsSeen_podHandler {services : AList fun _ : String => RegisteredService}
    (registrySeen : RegistrySeen seen services.toFinmap) {item : WatcherItem Pod}
    (itemSeen : seen (.watched (.pod item services))) {sent : List Message}
    (handled : (PodHandler.handler services).handle "Pod" item = .ok sent) :
    ∀ message ∈ sent, Message.BringsSeen fromStr seen message := by
  refine EventHandler.forall_sent handled ?_ ?_ ?_
  · rintro pod rfl
    simp only [PodHandler.handler, List.mem_map, Option.mem_toList]
    rintro _ ⟨req, sent, rfl⟩
    rcases of_onApply sent with ⟨carries, info_eq⟩
    refine bringsSeen_request (by simp) ?_ (by simp [Request.Performs])
    intro ip info performed
    simp only [Request.Performs, Request.sendPodEvent.injEq, exists_eq_left', reduceCtorEq,
      false_and, exists_false, or_false] at performed
    rcases performed with ⟨-, rfl, rfl⟩
    rw [info_eq]
    exact ⟨pod, ⟨_, itemSeen, rfl⟩, carries, named_podInfo registrySeen pod⟩
  · rintro pod rfl
    simp only [PodHandler.handler, PodHandler.onDelete, List.mem_map, Option.mem_toList]
    rintro _ ⟨req, sent, rfl⟩
    rcases Option.map_eq_some_iff.mp sent with ⟨podIp, -, rfl⟩
    refine bringsSeen_request (by simp) ?_ (by simp [Request.Performs])
    intro ip info performed
    simp [Request.Performs, ClusterAggregator.sendPodDeleted, K8sEventType.toNumber,
      K8sEventType.tryFrom] at performed
  · rintro pod rfl
    exact fun message member => absurd member List.not_mem_nil

theorem bringsSeen_sendEnvoyRoutes {routes : List EnvoyRoute}
    (shown : ∀ route ∈ routes, ∃ cm, (∃ action, seen action ∧ action.ShowsConfigMap cm) ∧
      route ∈ cm.envoyRoutes fromStr) :
    Message.BringsSeen fromStr seen
      (.request (.sendEnvoyRoutes (ClusterAggregator.sendEnvoyRoutes routes))) := by
  refine bringsSeen_request (by simp) (by simp [Request.Performs]) ?_
  intro domain serviceName ns performed
  simp only [Request.Performs, Request.sendEnvoyRoutes.injEq, exists_eq_left',
    ClusterAggregator.sendEnvoyRoutes, List.mem_map] at performed
  rcases performed with ⟨route, routeMem, same⟩
  obtain ⟨rfl, rfl, rfl⟩ := EnvoyRouteEntry.mk.inj same
  exact shown route routeMem

theorem bringsSeen_sendConfigMapEvent (req : ConfigMapEventRequest) :
    Message.BringsSeen fromStr seen (.request (.sendConfigMapEvent req)) :=
  bringsSeen_request (by simp) (by simp [Request.Performs]) (by simp [Request.Performs])

theorem bringsSeen_onApply {cm : ConfigMap}
    (shown : ∃ action, seen action ∧ action.ShowsConfigMap cm) :
    ∀ request ∈ ConfigMapHandler.onApply fromStr cm,
      Message.BringsSeen fromStr seen (.request request) := by
  intro request requestMem
  rw [ConfigMapHandler.onApply, List.mem_append] at requestMem
  rcases requestMem with routes | event
  · split at routes
    · cases routes
    · rw [List.mem_singleton.mp routes]
      exact bringsSeen_sendEnvoyRoutes fun route routeMem => ⟨cm, shown, routeMem⟩
  · rw [List.mem_singleton.mp event]
    exact bringsSeen_sendConfigMapEvent _

theorem bringsSeen_configMapHandler {item : WatcherItem ConfigMap}
    (itemSeen : seen (.watched (.configMap item))) {sent : List Message}
    (handled : (ConfigMapHandler.handler fromStr).handle "ConfigMap" item = .ok sent) :
    ∀ message ∈ sent, Message.BringsSeen fromStr seen message := by
  refine EventHandler.forall_sent handled ?_ ?_ ?_
  · rintro cm rfl
    rw [ConfigMapHandler.handler, List.forall_mem_map]
    exact bringsSeen_onApply ⟨_, itemSeen, rfl⟩
  · rintro cm rfl
    rw [ConfigMapHandler.handler, List.forall_mem_map]
    intro request requestMem
    rw [List.mem_singleton.mp requestMem]
    exact bringsSeen_sendConfigMapEvent _
  · rintro cm rfl
    rw [ConfigMapHandler.handler, List.forall_mem_map]
    exact bringsSeen_onApply ⟨_, itemSeen, rfl⟩

theorem bringsSeen_serviceHandler {item : WatcherItem WatchedService} {sent : List Message}
    (handled : ServiceHandler.handler.handle "Service" item = .ok sent) :
    ∀ message ∈ sent, Message.BringsSeen fromStr seen message := by
  have harmless (req : ServiceEventRequest) :
      Message.BringsSeen fromStr seen (.request (.sendServiceEvent req)) :=
    bringsSeen_request (by simp) (by simp [Request.Performs]) (by simp [Request.Performs])
  refine EventHandler.forall_sent handled ?_ ?_ ?_
  · intro svc _
    rw [ServiceHandler.handler, List.forall_mem_map]
    exact fun fields _ => harmless _
  · intro svc _
    rw [ServiceHandler.handler, List.forall_mem_singleton]
    exact harmless _
  · intro svc _
    rw [ServiceHandler.handler, List.forall_mem_map]
    exact fun fields _ => harmless _

/-- The other two handlers report resource events only. -/
theorem bringsSeen_eventHandler {item : WatcherItem WatchedEvent} {sent : List Message}
    (handled : K8sEventHandler.handler.handle "Event" item = .ok sent) :
    ∀ message ∈ sent, Message.BringsSeen fromStr seen message := by
  refine EventHandler.forall_sent handled ?_ ?_ ?_
  · exact fun event _ => List.forall_mem_singleton.mpr (bringsSeen_resource _)
  · exact fun event _ message member => absurd member List.not_mem_nil
  · exact fun event _ => List.forall_mem_singleton.mpr (bringsSeen_resource _)

theorem bringsSeen_genericHandler {kind : ResourceKind} {item : WatcherItem ObjectMeta}
    {sent : List Message}
    (handled : (GenericHandler.handler kind).handle kind.typeName item = .ok sent) :
    ∀ message ∈ sent, Message.BringsSeen fromStr seen message := by
  refine EventHandler.forall_sent handled ?_ ?_ ?_ <;>
    exact fun obj _ => List.forall_mem_singleton.mpr (bringsSeen_resource _)

/-- The map lists the pods of services that select them. -/
theorem bringsSeen_sendServicePodMap {services : List Service} {pods : List Pod}
    (listed : seen (.mapListed services pods)) :
    Message.BringsSeen fromStr seen
      (.request (.sendServicePodMap (sendInitialPodServiceMap services pods))) := by
  refine bringsSeen_request (by simp) ?_ (by simp [Request.Performs])
  intro ip info performed
  simp only [Request.Performs, reduceCtorEq, false_and, exists_false, false_or,
    Request.sendServicePodMap.injEq, exists_eq_left', sendInitialPodServiceMap,
    ClusterAggregator.sendServicePodMap, List.mem_map, List.mem_filterMap] at performed
  rcases performed with ⟨_, ⟨entry, ⟨service, serviceMem, sent⟩, rfl⟩, ipMem, rfl⟩
  rw [podServiceEntry_eq, Option.bind_eq_some_iff] at sent
  rcases sent with ⟨⟨key, registered⟩, registers, sent⟩
  simp only [Option.ite_none_right_eq_some, Option.some.injEq] at sent
  rcases sent with ⟨-, rfl⟩
  rcases List.mem_filterMap.mp ipMem with ⟨pod, podMem, carries⟩
  rcases List.mem_filter.mp podMem with ⟨podListed, selects⟩
  refine ⟨pod, ⟨_, listed, podListed⟩, carries, Or.inr ?_⟩
  exact ⟨service, key, registered, ⟨_, listed, serviceMem⟩, registers, of_decide_eq_true selects,
    rfl, rfl, fun _ => rfl, Or.inr rfl⟩

/-- Names are cached, held by tasks, on their way or registered only if they have been shown. -/
structure NamesSeen (fromStr : String → Option Yaml) (seen : Action → Prop)
    (installation : Installation) : Prop where
  core : installation.core.Traced (Brings fromStr seen)
  messages : ∀ message ∈ installation.messages, Message.BringsSeen fromStr seen message
  registry : RegistrySeen seen installation.registry

variable {installation : Installation} {toString : (AList fun _ : String => String) → String}

theorem NamesSeen.sends (named : NamesSeen fromStr seen installation) {action : Action}
    (actionSeen : seen action) :
    ∀ message ∈ installation.sends fromStr action, Message.BringsSeen fromStr seen message := by
  cases action with
  | watched watched =>
      rw [Installation.sends]
      by_cases watches : installation.Watches watched
      · rw [if_pos watches]
        cases handled : watched.handle fromStr with
        | error message => exact fun message member => absurd member List.not_mem_nil
        | ok sent =>
            cases watched with
            | configMap item => exact bringsSeen_configMapHandler actionSeen handled
            | service item => exact bringsSeen_serviceHandler handled
            | pod item services =>
                have registrySeen : RegistrySeen seen services.toFinmap := by
                  rw [watches]
                  exact named.registry
                exact bringsSeen_podHandler registrySeen actionSeen handled
            | event item => exact bringsSeen_eventHandler handled
            | resource kind item => exact bringsSeen_genericHandler handled
      · rw [if_neg watches]
        exact fun message member => absurd member List.not_mem_nil
  | mapListed services pods =>
      rw [Installation.sends, List.forall_mem_singleton]
      exact bringsSeen_sendServicePodMap actionSeen
  | routesListed cmList =>
      rw [Installation.sends, sendEnvoyRoutesFromConfigmaps, List.forall_mem_map]
      split
      · exact fun request member => absurd member List.not_mem_nil
      · rw [List.forall_mem_singleton]
        refine bringsSeen_sendEnvoyRoutes ?_
        intro route routeMem
        rcases List.mem_flatMap.mp routeMem with ⟨cm, cmMem, read⟩
        exact ⟨cm, ⟨_, actionSeen, cmMem⟩, read⟩
  | _ => exact fun message member => absurd member List.not_mem_nil

theorem RegistrySeen.onApply {services : ServiceRegistry}
    (registrySeen : RegistrySeen seen services) {service : Service}
    (shown : ∃ action, seen action ∧ action.ShowsService service) :
    RegistrySeen seen (ServiceHandler.onApply service services) := by
  rw [ServiceHandler.onApply, ServiceRegistry.register_fst]
  cases registers : service.registration? with
  | none => exact registrySeen
  | some entry =>
      intro key registered held
      rw [Option.elim_some] at held
      by_cases same : key = entry.1
      · subst same
        rw [Finmap.lookup_insert, Option.some.injEq] at held
        exact ⟨service, shown, by rw [registers, ← held]⟩
      · rw [Finmap.lookup_insert_of_ne _ same] at held
        exact registrySeen key registered held

theorem RegistrySeen.register {services : ServiceRegistry}
    (registrySeen : RegistrySeen seen services) {item : WatcherItem WatchedService}
    (itemSeen : seen (.watched (.service item))) :
    RegistrySeen seen (ServiceHandler.register services item) := by
  cases item with
  | apply svc | initApply svc => exact registrySeen.onApply ⟨_, itemSeen, rfl⟩
  | delete svc =>
      intro key registered held
      simp only [ServiceHandler.register, ServiceHandler.onDelete, ServiceRegistry.deregister]
        at held
      by_cases same : key = svc.service.metadata.ns.getD "" ++ "/" ++
          svc.service.metadata.name.getD ""
      · rw [same, Finmap.lookup_erase] at held
        cases held
      · rw [Finmap.lookup_erase_ne same] at held
        exact registrySeen key registered held
  | _ => exact registrySeen

theorem registrySeen_new : RegistrySeen seen ServiceRegistry.new := by
  intro key registered held
  simp [ServiceRegistry.new] at held

theorem NamesSeen.informers (named : NamesSeen fromStr seen installation) {action : Action}
    (actionSeen : seen action) :
    RegistrySeen seen (installation.informers fromStr action).1 := by
  cases action with
  | watched watched =>
      rw [Installation.informers]
      split
      · split
        · cases watched with
          | service item => exact named.registry.register actionSeen
          | _ => exact named.registry
        · split
          · exact named.registry
          · exact registrySeen_new
      · exact named.registry
  | agentRestart => exact registrySeen_new
  | _ => exact named.registry

theorem NamesSeen.coreAfter (named : NamesSeen fromStr seen installation) {action : Action}
    (actionSeen : seen action) :
    (installation.coreAfter action).Traced (Brings fromStr seen) := by
  cases action with
  | deliver index now labels =>
      rw [Installation.coreAfter]
      cases received : installation.receives (.deliver index now labels) with
      | none => exact named.core
      | some receipt =>
          rw [receives, Option.filter_eq_some_iff, Option.map_eq_some_iff] at received
          rcases received with ⟨⟨message, found, rfl⟩, -⟩
          have brings := named.messages message (List.mem_of_getElem? found)
          exact named.core.arrive (brings now labels)
  | traffic input =>
      refine named.core.arrive ?_
      rw [Request.operations, List.forall_mem_singleton]
      exact actionSeen
  | advance task => exact named.core.advance task
  | coreRestart => exact System.traced_initial _
  | _ => exact named.core

theorem NamesSeen.step (named : NamesSeen fromStr seen installation) {action : Action}
    (actionSeen : seen action) :
    NamesSeen fromStr seen (installation.step fromStr toString action) where
  core := named.coreAfter actionSeen
  registry := named.informers actionSeen
  messages := by
    intro message member
    rcases Pool.Move.mem_or_posted_of_mem_perform member with present | posted
    · exact named.messages message present
    · have sent := posted_messagePool fromStr toString installation action
      rw [Pool.Host.posted] at sent
      exact named.sends actionSeen message (sent ▸ posted)

theorem namesSeen_start (table : List K8sResourceEvent) :
    NamesSeen fromStr seen (start table) where
  core := System.traced_initial _
  messages := fun _ member => absurd member List.not_mem_nil
  registry := registrySeen_new

theorem namesSeen_run (fromStr : String → Option Yaml)
    (toString : (AList fun _ : String => String) → String) (table : List K8sResourceEvent)
    (actions : List Action) :
    NamesSeen fromStr (· ∈ actions) ((start table).run fromStr toString actions) :=
  List.foldlRecOn actions (Installation.step fromStr toString) (namesSeen_start table)
    fun _ named _ actionSeen => named.step actionSeen

/--
After any steps of the agent and Core, every name that Core has cached has been shown by the cluster
in one of these steps: an IP is cached for a pod that had it, under the name that its own metadata
or a service selecting it gives it, and an Envoy domain as a ConfigMap routes it.
-/
theorem cached_names_shown (fromStr : String → Option Yaml)
    (toString : (AList fun _ : String => String) → String) (table : List K8sResourceEvent)
    (actions : List Action) :
    let state := ((start table).run fromStr toString actions).core.state
    (∀ ip info, state.podCache.lookup ip = some info →
      ∃ pod, (∃ action ∈ actions, action.ShowsPod pod) ∧ PodHandler.podIp pod = some ip ∧
        (NamedByItself pod info ∨ NamedByService (· ∈ actions) pod info)) ∧
    ∀ domain target, state.envoyCache.lookup domain = some target →
      ∃ cm, (∃ action ∈ actions, action.ShowsConfigMap cm) ∧
        ⟨domain, target.1, target.2⟩ ∈ cm.envoyRoutes fromStr := by
  intro state
  have sourced := (namesSeen_run fromStr toString table actions).core.sourced
  exact ⟨sourced.state.podCache, sourced.state.envoyCache⟩

/-! ## The names in the graph -/

/-- The node is a pod that has been shown, under a name that it has or is given. -/
def NamesPod (seen : Action → Prop) (node : NodeId) : Prop :=
  ∃ pod info, (∃ action, seen action ∧ action.ShowsPod pod) ∧
    (NamedByItself pod info ∨ NamedByService seen pod info) ∧ info.applicationName ≠ "" ∧
    node = info.node

/-- The node is one to which a shown ConfigMap routes. -/
def NamesTarget (fromStr : String → Option Yaml) (seen : Action → Prop) (node : NodeId) : Prop :=
  ∃ cm, (∃ action, seen action ∧ action.ShowsConfigMap cm) ∧
    ∃ route ∈ cm.envoyRoutes fromStr, node = ⟨route.serviceName, route.ns⟩

theorem namesPod_of_announces {operation : Operation} (brings : Brings fromStr seen operation)
    {node : NodeId} (announces : operation.AnnouncesNode node) : NamesPod seen node := by
  cases operation with
  | podApplied ip info =>
      rcases brings with ⟨pod, shown, -, named⟩
      exact ⟨pod, info, shown, named, announces.1, announces.2⟩
  | _ => cases announces

/--
After any steps of the agent, the loader and Core, each flow of the graph is of an event that has
arrived, with its method and path. It leaves a pod that the cluster has shown, and goes to another
one, to a target of a shown ConfigMap, or to what is read from the host of an arrived event.
-/
theorem graph_names_shown (fromStr : String → Option Yaml)
    (toString : (AList fun _ : String => String) → String) (table : List K8sResourceEvent)
    (actions : List Action) (flow : Flow)
    (stored : ((start table).run fromStr toString actions).core.state.topology.Stores flow) :
    (∃ input, .traffic input ∈ actions ∧ flow.path = input.path ∧ flow.method = input.method) ∧
    NamesPod (· ∈ actions) flow.sourceNode ∧
    (NamesPod (· ∈ actions) flow.destinationNode ∨
      NamesTarget fromStr (· ∈ actions) flow.destinationNode ∨
      ∃ input, .traffic input ∈ actions ∧ flow.destinationNode = input.guess) := by
  rcases (namesSeen_run fromStr toString table actions).core.graph with ⟨calls, represented, traced⟩
  have flowTraced := traced flow (represented.stores_iff.mp stored)
  refine ⟨flowTraced.event, ?_, ?_⟩
  · rcases flowTraced.source with ⟨operation, brings, announces⟩
    exact namesPod_of_announces brings announces
  · rcases flowTraced.destination with ⟨operation, brings, announces | routes | guesses⟩
    · exact Or.inl (namesPod_of_announces brings announces)
    · cases operation with
      | envoyRoute domain serviceName ns =>
          rcases brings with ⟨cm, shown, routed⟩
          exact Or.inr (Or.inl ⟨cm, shown, _, routed, routes⟩)
      | _ => cases routes
    · cases operation with
      | ebpfEvent input => exact Or.inr (Or.inr ⟨input, brings, guesses⟩)
      | _ => cases guesses

/-- A pod is shown, its message arrives, and then a call of this pod is captured. -/
def callCaptured : List Action :=
  let web : ObjectMeta := { uid := none, name := some "web", ns := some "team-a", labels := none }
  [.watched (.pod (.apply { metadata := web, status := some ⟨some "10.0.0.1"⟩ }) ∅),
    .deliver 0 60 ∅, .advance 0, .advance 0,
    .traffic ⟨16777226, 33554442, "GET", "/", "api.prod.svc"⟩,
    .advance 1, .advance 1, .advance 1, .advance 1, .advance 1, .advance 1]

def capturedCall : Flow where
  sourceNode := { applicationName := "web", ns := "team-a" }
  destinationNode := { applicationName := "api", ns := "prod" }
  path := "/"
  method := "GET"

theorem graph_names_shown_callCaptured :
    (∃ input, .traffic input ∈ callCaptured ∧ capturedCall.path = input.path ∧
      capturedCall.method = input.method) ∧
    NamesPod (· ∈ callCaptured) capturedCall.sourceNode ∧
    (NamesPod (· ∈ callCaptured) capturedCall.destinationNode ∨
      NamesTarget (fun _ => none) (· ∈ callCaptured) capturedCall.destinationNode ∨
      ∃ input, .traffic input ∈ callCaptured ∧ capturedCall.destinationNode = input.guess) :=
  graph_names_shown (fun _ => none) (fun _ => "\x7b\x7d") [] callCaptured capturedCall
    (Or.inr ⟨capturedCall.sourceNode, by decide +kernel⟩)

end Installation

end Qubit.Agent
