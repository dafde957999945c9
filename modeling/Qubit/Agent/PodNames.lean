import Qubit.Agent.PodHandler
import Qubit.Agent.RegistryContents

/-!
# Announced pods as sources of traffic

An event is attributed to the cached pod of its source IP, if this pod has an
application name. The agent announces a pod under the name of its service, else
under the first of three labels, else under its own name. A label value may be
empty, and an empty value is taken like any other: such a pod is announced without a
name, and its traffic is dropped until another message names it.
-/

namespace Qubit

/-- The request is a message about the IP. -/
def Request.Concerns (ip : String) : Request → Prop
  | .sendPodEvent req => req.podIp = ip
  | .sendServicePodMap req => ∃ entry ∈ req.entries, ip ∈ entry.podIps
  | _ => False

instance (ip : String) : DecidablePred (Request.Concerns ip)
  | .sendPodEvent req => inferInstanceAs (Decidable (req.podIp = ip))
  | .sendServicePodMap _ => inferInstanceAs (Decidable (∃ _ ∈ _, _))
  | .sendEbpfNetworkEvent _ => .isFalse id
  | .sendServiceEvent _ => .isFalse id
  | .sendConfigMapEvent _ => .isFalse id
  | .sendK8sResourceEvent _ _ => .isFalse id
  | .sendEnvoyRoutes _ => .isFalse id

theorem Request.concerns_of_podWrite? {request : Request} {operation : Operation}
    (performed : operation ∈ request.operations) {write : KeyedWrite String PodInfo}
    (writes : operation.podWrite? = some write) : request.Concerns write.key := by
  cases operation with
  | podApplied podIp info =>
      rw [Operation.podWrite?, Option.some.injEq] at writes
      rw [← writes]
      rcases mem_operations_iff.mp performed with
        ⟨req, rfl, -, isIp, -⟩ | ⟨req, rfl, entry, entryMem, carried, -⟩
      · exact isIp
      · exact ⟨entry, entryMem, carried⟩
  | podDeleted podIp =>
      rw [Operation.podWrite?, Option.some.injEq] at writes
      rw [← writes]
      rcases mem_operations_iff.mp performed with ⟨req, rfl, -, isIp⟩
      exact isIp
  | _ => cases writes

namespace CoreState

/-- Requests that are not about an IP leave its cached pod as it is. -/
theorem podCache_lookup_run {state : CoreState} {requests : List Request} {ip : String}
    (unconcerned : ∀ request ∈ requests, ¬request.Concerns ip) :
    (state.run requests).podCache.lookup ip = state.podCache.lookup ip := by
  rw [podCache_run, KeyedWrite.lookup_replay]
  have unwritten : KeyedWrite.last ip
      ((operationsOf requests).filterMap Operation.podWrite?) = none := by
    rw [KeyedWrite.last_eq_none_iff]
    rintro write writeMem rfl
    rcases List.mem_filterMap.mp writeMem with ⟨operation, member, writes⟩
    rcases List.mem_flatMap.mp member with ⟨request, requestMem, performed⟩
    exact unconcerned request requestMem (Request.concerns_of_podWrite? performed writes)
  rw [unwritten]
  rfl

theorem recordEbpfEvent_snd_eq_unresolved_iff {state : CoreState} {input : EbpfNetworkEventInput}
    (notHealth : ¬Text.Contains "/health" input.path) :
    (state.recordEbpfEvent input).2 = "unresolved source — waiting for pod event" ↔
      state.source? input = none := by
  have seenMessage : "node already exists!" ≠ "unresolved source — waiting for pod event" := by
    decide
  have savedMessage : "saved event!" ≠ "unresolved source — waiting for pod event" := by
    decide
  unfold recordEbpfEvent source?
  simp only [notHealth, if_false]
  cases (state.podCache.lookup input.srcIpStr).filter PodInfo.isNamed with
  | none => exact iff_of_true rfl rfl
  | some src =>
      refine iff_of_false (fun dropped => ?_) (Option.some_ne_none src)
      dsimp only at dropped
      rw [apply_ite Prod.snd, ite_eq_iff] at dropped
      rcases dropped with ⟨-, seen⟩ | ⟨-, saved⟩
      · exact seenMessage seen
      · exact savedMessage saved

end CoreState

namespace Agent

namespace PodHandler

/-- The first of the three labels that name an application. -/
def nameLabel? (pod : Pod) : Option String :=
  (pod.metadata.labels.bind (·.lookup "app.kubernetes.io/name")).or
    ((pod.metadata.labels.bind (·.lookup "app.k8s.io/name")).or
      (pod.metadata.labels.bind (·.lookup "app")))

theorem resolveApplicationName_of_named (pod : Pod) {serviceName : String}
    (named : serviceName ≠ "") : resolveApplicationName pod serviceName = serviceName := by
  rw [resolveApplicationName, if_pos named]

theorem resolveApplicationName_empty (pod : Pod) :
    resolveApplicationName pod "" = (nameLabel? pod).getD (pod.metadata.name.getD "") := by
  unfold resolveApplicationName nameLabel?
  cases pod.metadata.labels.bind (·.lookup "app.kubernetes.io/name") with
  | some name => rfl
  | none =>
      cases pod.metadata.labels.bind (·.lookup "app.k8s.io/name") with
      | some name => rfl
      | none =>
          cases pod.metadata.labels.bind (·.lookup "app") with
          | some name => rfl
          | none => rfl

end PodHandler

open ServiceRegistry in
/-- Every held entry was registered by one of the calls. -/
theorem ServiceRegistry.exists_register_of_lookup {calls : List Call} {key : String}
    {registered : RegisteredService} (held : (after calls).lookup key = some registered) :
    ∃ service, .register service ∈ calls ∧ service.registration? = some (key, registered) := by
  rcases lookup_after_iff.mp held with ⟨before, service, later, rfl, registers, -⟩
  exact ⟨service, List.mem_append_right _ List.mem_cons_self, registers⟩

theorem Selects.labels_ne_none {selector : Labels} {labels : Option Labels}
    (selects : Selects selector labels) (selecting : selector ≠ ∅) : labels ≠ none := by
  rintro rfl
  apply selecting
  refine Finmap.ext_lookup fun key => ?_
  rw [Finmap.lookup_empty, Finmap.lookup_eq_none]
  intro keyMem
  have unlabelled := selects key (Finmap.mem_keys.mpr keyMem)
  rw [Option.bind_none, eq_comm, Finmap.lookup_eq_none] at unlabelled
  exact unlabelled keyMem

/-- The search does not fail while a service with a selector that selects the pod is held. -/
theorem ServiceRegistry.findServiceForPod_ne_none
    {order : AList fun _ : String => RegisteredService} {pod : Pod} {key : String}
    {registered : RegisteredService} (held : order.toFinmap.lookup key = some registered)
    (selecting : registered.selector ≠ ∅)
    (selects : Selects registered.selector pod.metadata.labels) :
    findServiceForPod order pod ≠ none := by
  rcases Option.ne_none_iff_exists'.mp (selects.labels_ne_none selecting) with
    ⟨labels, labelled⟩
  rw [labelled] at selects
  intro missed
  exact findServiceForPod_eq_none labelled missed held selects

/-- A pod is announced with a name exactly when a service selects it or no empty label names it. -/
theorem podInfo_named_iff {calls : List ServiceRegistry.Call}
    (serviceNames : ∀ service, .register service ∈ calls → service.metadata.name ≠ some "")
    {order : AList fun _ : String => RegisteredService}
    (listing : order.toFinmap = ServiceRegistry.after calls) {pod : Pod} {name : String}
    (podName : pod.metadata.name = some name) (nameNe : name ≠ "") :
    (PodHandler.podInfo order pod).applicationName ≠ "" ↔
      (∃ key registered, (ServiceRegistry.after calls).lookup key = some registered ∧
        Selects registered.selector pod.metadata.labels) ∨
      PodHandler.nameLabel? pod ≠ some "" := by
  rw [PodHandler.podInfo]
  cases found : ServiceRegistry.findServiceForPod order pod with
  | some service =>
      rcases ServiceRegistry.findServiceForPod_eq_some found with
        ⟨key, registered, held, selects, sameName, -⟩
      rw [listing] at held
      rcases ServiceRegistry.exists_register_of_lookup held with ⟨origin, originMem, registers⟩
      have serviceNamed : service.1 ≠ "" := by
        intro unnamed
        have originName := (ServiceRegistry.of_registration? registers).1
        rw [sameName, unnamed] at originName
        exact serviceNames origin originMem originName
      refine iff_of_true ?_ (Or.inl ⟨key, registered, held, selects⟩)
      rw [Option.getD_some]
      dsimp only
      rw [PodHandler.resolveApplicationName_of_named pod serviceNamed]
      exact serviceNamed
  | none =>
      have unselected : ¬∃ key registered,
          (ServiceRegistry.after calls).lookup key = some registered ∧
            Selects registered.selector pod.metadata.labels := by
        rintro ⟨key, registered, held, selects⟩
        rcases ServiceRegistry.exists_register_of_lookup held with ⟨origin, -, registers⟩
        rw [← listing] at held
        exact ServiceRegistry.findServiceForPod_ne_none held
          (ServiceRegistry.of_registration? registers).2.1 selects found
      rw [or_iff_right unselected, Option.getD_none]
      dsimp only
      rw [PodHandler.resolveApplicationName_empty]
      cases PodHandler.nameLabel? pod with
      | none => simpa [podName] using nameNe
      | some label => simp

theorem podCache_lookup_deliver_apply (state : CoreState)
    (order : AList fun _ : String => RegisteredService) {pod : Pod} {ip : String}
    (carries : PodHandler.podIp pod = some ip) :
    (deliver state (messagesOf [.apply pod order])).podCache.lookup ip =
      some (PodHandler.podInfo order pod) := by
  have applied : (WatchEvent.apply pod order).write? =
      some { key := ip, value := some (PodHandler.podInfo order pod) } := by
    simp [WatchEvent.write?, WatchEvent.ip, WatchEvent.pod, WatchEvent.content, carries]
  rw [podCache_deliver, filterMap_writeOf_messagesOf, List.filterMap_cons_some applied,
    List.filterMap_nil, KeyedWrite.replay, List.foldl_cons, List.foldl_nil,
    KeyedWrite.lookup_perform, if_pos rfl]

/--
Until another message about its IP arrives, the traffic of an announced pod is not dropped for an
unresolved source, exactly when a service selects the pod or no empty label names it.
-/
theorem resolved_source_iff (state : CoreState) (calls : List ServiceRegistry.Call)
    (serviceNames : ∀ service, .register service ∈ calls → service.metadata.name ≠ some "")
    (order : AList fun _ : String => RegisteredService)
    (listing : order.toFinmap = ServiceRegistry.after calls) (pod : Pod) (name ip : String)
    (podName : pod.metadata.name = some name) (nameNe : name ≠ "")
    (carries : PodHandler.podIp pod = some ip) (later : List Request)
    (unconcerned : ∀ request ∈ later, ¬request.Concerns ip) (input : EbpfNetworkEventInput)
    (fromPod : input.srcIpStr = ip) (notHealth : ¬Text.Contains "/health" input.path) :
    (((deliver state (messagesOf [.apply pod order])).run later).recordEbpfEvent input).2 ≠
        "unresolved source — waiting for pod event" ↔
      (∃ key registered, (ServiceRegistry.after calls).lookup key = some registered ∧
        Selects registered.selector pod.metadata.labels) ∨
      PodHandler.nameLabel? pod ≠ some "" := by
  rw [ne_eq, CoreState.recordEbpfEvent_snd_eq_unresolved_iff notHealth,
    ← podInfo_named_iff serviceNames listing podName nameNe, CoreState.source?, fromPod,
    CoreState.podCache_lookup_run unconcerned, podCache_lookup_deliver_apply state order carries]
  simp [Option.filter_some, PodInfo.isNamed]

/-- A pod whose application label is empty, and an event from its IP. -/
def emptyLabelPod : Pod where
  metadata :=
    { uid := some "1", name := some "web-1", ns := some "default",
      labels := some (Finmap.singleton "app" "") }
  status := some { podIp := some "10.0.0.5" }

def eventFromPod : EbpfNetworkEventInput :=
  ⟨83886090, 150994954, "GET", "/", "api.prod.svc"⟩

/-- Another pod with its own IP is announced after it. -/
def otherPodEvent : Request :=
  .sendPodEvent ⟨"10.0.0.6", "default", 0, "job", "job", "ClusterIP"⟩

open ServiceRegistry in
theorem resolved_source_emptyLabelPod_iff :
    (((deliver CoreState.empty (messagesOf [.apply emptyLabelPod (AList.singleton "default/web"
        { name := "web", serviceType := "ClusterIP",
          selector := Finmap.singleton "app" "web" })])).run
        [otherPodEvent]).recordEbpfEvent eventFromPod).2 ≠
        "unresolved source — waiting for pod event" ↔
      (∃ key registered, (after [.register selectingService]).lookup key = some registered ∧
        Selects registered.selector emptyLabelPod.metadata.labels) ∨
      PodHandler.nameLabel? emptyLabelPod ≠ some "" := by
  have named : ∀ service, .register service ∈ [Call.register selectingService] →
      service.metadata.name ≠ some "" := by
    intro service member
    obtain rfl := Call.register.inj (List.mem_singleton.mp member)
    decide
  have unconcerned : ∀ request ∈ [otherPodEvent], ¬request.Concerns "10.0.0.5" := by
    decide +kernel
  exact resolved_source_iff CoreState.empty [.register selectingService] named _
    (by decide +kernel) emptyLabelPod "web-1" "10.0.0.5" rfl (by decide) rfl [otherPodEvent]
    unconcerned eventFromPod (by decide +kernel) (by decide +kernel)

theorem exists_dropped_source :
    ∃ (calls : List ServiceRegistry.Call) (order : AList fun _ : String => RegisteredService)
      (pod : Pod) (name ip : String) (later : List Request) (input : EbpfNetworkEventInput),
      (∀ service, .register service ∈ calls → service.metadata.name ≠ some "") ∧
        order.toFinmap = ServiceRegistry.after calls ∧ pod.metadata.name = some name ∧
        name ≠ "" ∧ PodHandler.podIp pod = some ip ∧
        (∀ request ∈ later, ¬request.Concerns ip) ∧ input.srcIpStr = ip ∧
        ¬Text.Contains "/health" input.path ∧
        (((deliver CoreState.empty (messagesOf [.apply pod order])).run
          later).recordEbpfEvent input).2 = "unresolved source — waiting for pod event" :=
  ⟨[], ∅, emptyLabelPod, "web-1", "10.0.0.5", [], eventFromPod,
    fun _ member => absurd member List.not_mem_nil, rfl, rfl, by decide, rfl,
    fun _ member => absurd member List.not_mem_nil, by decide +kernel, by decide +kernel,
    by decide +kernel⟩

end Agent

end Qubit
