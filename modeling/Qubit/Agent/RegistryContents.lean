import Qubit.Agent.ServiceRegistry
import Qubit.Lib.KeyedWrites
import Qubit.Lib.Run

/-!
# What the service registry holds

The registry is written under the text `namespace/name`: a service with a selector
is inserted, a deleted one is removed. An update that takes the selector away does
neither, so the old entry stays. The registry mirrors the cluster exactly when the
updates of a service that it holds are all registrations or removals.

A pod is matched to the first listed service whose selector its labels satisfy. The
selectors of Kubernetes are meant for pods of the same namespace, but the search
does not compare namespaces.
-/

namespace Qubit.Agent

/-- The key and the entry under which a service is registered, if it is. -/
def Service.registration? (service : Service) : Option (String × RegisteredService) :=
  match service.metadata.name, service.spec with
  | some name, some spec =>
      if spec.selector.getD ∅ = ∅ then none
      else
        some (service.metadata.ns.getD "" ++ "/" ++ name,
          { name, serviceType := spec.type.getD "ClusterIP", selector := spec.selector.getD ∅ })
  | _, _ => none

namespace ServiceRegistry

/-- A call that changes the registry. -/
inductive Call where
  | register (service : Service)
  | deregister (name ns : String)

def Call.perform (services : ServiceRegistry) : Call → ServiceRegistry
  | .register service => (services.register service).1
  | .deregister name ns => (services.deregister name ns).1

/-- The registry after calls. -/
def after (calls : List Call) : ServiceRegistry :=
  calls.foldl Call.perform new

/-- The write that a call amounts to. -/
def Call.write? : Call → Option (KeyedWrite String RegisteredService)
  | .register service =>
      service.registration?.map fun entry => { key := entry.1, value := some entry.2 }
  | .deregister name ns => some { key := ns ++ "/" ++ name, value := none }

theorem register_fst (services : ServiceRegistry) (service : Service) :
    (services.register service).1 =
      service.registration?.elim services fun entry => services.insert entry.1 entry.2 := by
  unfold register Service.registration?
  cases service.metadata.name with
  | none => rfl
  | some name =>
      cases service.spec with
      | none => rfl
      | some spec =>
          by_cases selectorless : spec.selector.getD ∅ = ∅
          · simp [selectorless]
          · simp [selectorless]

theorem perform_eq (services : ServiceRegistry) (call : Call) :
    call.perform services = call.write?.elim services (KeyedWrite.perform services) := by
  cases call with
  | register service =>
      rw [Call.perform, register_fst, Call.write?]
      cases service.registration? with
      | none => rfl
      | some entry => rfl
  | deregister name ns => rfl

theorem after_eq_replay (calls : List Call) :
    after calls = KeyedWrite.replay ∅ (calls.filterMap Call.write?) :=
  KeyedWrite.foldl_eq_replay id perform_eq new calls

/-- An entry is held exactly when it was registered and its key was not written after that. -/
theorem lookup_after_iff {calls : List Call} {key : String} {registered : RegisteredService} :
    (after calls).lookup key = some registered ↔
      ∃ before service later, calls = before ++ .register service :: later ∧
        service.registration? = some (key, registered) ∧
        ∀ call ∈ later, ∀ write ∈ call.write?, write.key ≠ key := by
  rw [after_eq_replay, KeyedWrite.lookup_replay_empty_iff, KeyedWrite.last_filterMap_eq_some_iff]
  constructor
  · rintro ⟨before, call, later, split, writes, -, unwritten⟩
    cases call with
    | register service =>
        rcases Option.map_eq_some_iff.mp writes with ⟨entry, registers, write⟩
        simp only [KeyedWrite.mk.injEq, Option.some.injEq] at write
        rcases write with ⟨rfl, rfl⟩
        exact ⟨before, service, later, split, registers, unwritten⟩
    | deregister name ns => simp [Call.write?] at writes
  · rintro ⟨before, service, later, split, registers, unwritten⟩
    refine ⟨before, .register service, later, split, ?_, rfl, unwritten⟩
    rw [Call.write?, registers, Option.map_some]

/-- An entry has a name and a selector, and its key is the name behind the namespace. -/
theorem of_registration? {service : Service} {key : String} {registered : RegisteredService}
    (registers : service.registration? = some (key, registered)) :
    service.metadata.name = some registered.name ∧ registered.selector ≠ ∅ ∧
      key = service.metadata.ns.getD "" ++ "/" ++ registered.name := by
  unfold Service.registration? at registers
  cases named : service.metadata.name with
  | none => simp [named] at registers
  | some name =>
      cases specified : service.spec with
      | none => simp [named, specified] at registers
      | some spec =>
          simp only [named, specified, Option.ite_none_left_eq_some, Option.some.injEq,
            Prod.mk.injEq] at registers
          rcases registers with ⟨selecting, rfl, rfl⟩
          exact ⟨rfl, selecting, rfl⟩

end ServiceRegistry

/-! ## The events of services -/

/-- A service watch event. -/
inductive ServiceEvent where
  | apply (service : Service)
  | delete (service : Service)

namespace ServiceHandler

/-- Initial services are handled in the same way. -/
def onApply (service : Service) (services : ServiceRegistry) : ServiceRegistry :=
  (services.register service).1

def onDelete (service : Service) (services : ServiceRegistry) : ServiceRegistry :=
  (services.deregister (service.metadata.name.getD "") (service.metadata.ns.getD "")).1

def handle (services : ServiceRegistry) : ServiceEvent → ServiceRegistry
  | .apply service => onApply service services
  | .delete service => onDelete service services

end ServiceHandler

namespace ServiceEvent

def service : ServiceEvent → Service
  | .apply service => service
  | .delete service => service

/-- Which service the event is about, by its namespace and its name. -/
def identity (event : ServiceEvent) : String × String :=
  (event.service.metadata.ns.getD "", event.service.metadata.name.getD "")

def call : ServiceEvent → ServiceRegistry.Call
  | .apply service => .register service
  | .delete service =>
      .deregister (service.metadata.name.getD "") (service.metadata.ns.getD "")

/-- The event registers or removes the entry of a key. -/
def Writes (key : String) (event : ServiceEvent) : Prop :=
  ∃ write ∈ event.call.write?, write.key = key

end ServiceEvent

/--
The entries are the services whose last event is an apply with a selector, each with what this
apply carries.
-/
def Mirrors (services : ServiceRegistry) (events : List ServiceEvent) : Prop :=
  ∀ key registered, services.lookup key = some registered ↔
    ∃ before service after, events = before ++ .apply service :: after ∧
      (∀ later ∈ after, later.identity ≠ (ServiceEvent.apply service).identity) ∧
      service.registration? = some (key, registered)

/--
After a registration another event of the service follows exactly when its key is registered again
or removed.
-/
def UpdatesWrite (events : List ServiceEvent) : Prop :=
  ∀ before service after key registered, events = before ++ .apply service :: after →
    service.registration? = some (key, registered) →
      ((∃ later ∈ after, later.identity = (ServiceEvent.apply service).identity) ↔
        ∃ later ∈ after, later.Writes key)

theorem foldl_handle (events : List ServiceEvent) :
    events.foldl ServiceHandler.handle ServiceRegistry.new =
      ServiceRegistry.after (events.map ServiceEvent.call) := by
  rw [ServiceRegistry.after, List.foldl_map]
  congr 1
  funext services event
  cases event with
  | apply service => rfl
  | delete service => rfl

theorem lookup_foldl_handle_iff {events : List ServiceEvent} {key : String}
    {registered : RegisteredService} :
    (events.foldl ServiceHandler.handle ServiceRegistry.new).lookup key = some registered ↔
      ∃ before service after, events = before ++ .apply service :: after ∧
        service.registration? = some (key, registered) ∧ ∀ later ∈ after, ¬later.Writes key := by
  rw [foldl_handle, ServiceRegistry.lookup_after_iff]
  constructor
  · rintro ⟨_, service, _, split, registers, unwritten⟩
    rcases List.map_eq_append_iff.mp split with ⟨before, rest, rfl, rfl, restSplit⟩
    rcases List.map_eq_cons_iff.mp restSplit with ⟨event, after, rfl, isRegister, rfl⟩
    cases event with
    | apply applied =>
        rw [ServiceEvent.call, ServiceRegistry.Call.register.injEq] at isRegister
        subst isRegister
        refine ⟨before, applied, after, rfl, registers, ?_⟩
        rintro later laterMem ⟨write, written, writeKey⟩
        exact unwritten later.call (List.mem_map_of_mem laterMem) write written writeKey
    | delete deleted => cases isRegister
  · rintro ⟨before, service, after, rfl, registers, unwritten⟩
    refine ⟨before.map ServiceEvent.call, service, after.map ServiceEvent.call, ?_, registers, ?_⟩
    · rw [List.map_append, List.map_cons, ServiceEvent.call]
    · intro call callMem write written writeKey
      rcases List.mem_map.mp callMem with ⟨later, laterMem, rfl⟩
      exact unwritten later laterMem ⟨write, written, writeKey⟩

/-- Registrations of one key under one name are of one service. -/
theorem identity_eq_of_registration? {service other : Service} {key : String}
    {registered otherRegistered : RegisteredService}
    (registers : service.registration? = some (key, registered))
    (otherRegisters : other.registration? = some (key, otherRegistered))
    (sameName : registered.name = otherRegistered.name) :
    (ServiceEvent.apply service).identity = (ServiceEvent.apply other).identity := by
  rcases ServiceRegistry.of_registration? registers with ⟨name, -, keyText⟩
  rcases ServiceRegistry.of_registration? otherRegisters with ⟨otherName, -, otherKeyText⟩
  have sameNs : service.metadata.ns.getD "" = other.metadata.ns.getD "" := by
    rw [keyText, sameName, String.append_left_inj, String.append_left_inj] at otherKeyText
    exact otherKeyText
  simp only [ServiceEvent.identity, ServiceEvent.service, name, otherName, sameName, sameNs]

theorem writes_of_registration? {service : Service} {key : String}
    {registered : RegisteredService} (registers : service.registration? = some (key, registered)) :
    (ServiceEvent.apply service).Writes key := by
  refine ⟨{ key, value := some registered }, ?_, rfl⟩
  rw [Option.mem_def, ServiceEvent.call, ServiceRegistry.Call.write?, registers, Option.map_some]

theorem Mirrors.updatesWrite {events : List ServiceEvent}
    (mirrors : Mirrors (events.foldl ServiceHandler.handle ServiceRegistry.new) events) :
    UpdatesWrite events := by
  simp only [Mirrors, lookup_foldl_handle_iff] at mirrors
  intro before service after key registered split registers
  constructor
  · rintro ⟨update, updateMem, sameIdentity⟩
    by_contra unwritten
    have held : ∀ later ∈ after, ¬later.Writes key := fun later laterMem writes =>
      unwritten ⟨later, laterMem, writes⟩
    rcases (mirrors key registered).mp ⟨before, service, after, split, registers, held⟩ with
      ⟨before', other, after', otherSplit, otherLast, otherRegisters⟩
    have same := identity_eq_of_registration? otherRegisters registers rfl
    rcases Run.same_or_later (split.symm.trans otherSplit) with ⟨-, rfl⟩ | behind | ahead
    · exact otherLast update updateMem (sameIdentity.trans same.symm)
    · exact held _ behind (writes_of_registration? otherRegisters)
    · exact otherLast _ ahead same.symm
  · rintro ⟨update, updateMem, writes⟩
    by_contra unrelated
    have last : ∀ later ∈ after, later.identity ≠ (ServiceEvent.apply service).identity :=
      fun later laterMem sameIdentity => unrelated ⟨later, laterMem, sameIdentity⟩
    rcases (mirrors key registered).mpr ⟨before, service, after, split, last, registers⟩ with
      ⟨before', other, after', otherSplit, otherRegisters, otherHeld⟩
    have same := identity_eq_of_registration? otherRegisters registers rfl
    rcases Run.same_or_later (split.symm.trans otherSplit) with ⟨-, rfl⟩ | behind | ahead
    · exact otherHeld update updateMem writes
    · exact last _ behind same
    · exact otherHeld _ ahead (writes_of_registration? registers)

/-- The registry mirrors the cluster exactly when updates of registered services write. -/
theorem mirrors_iff (events : List ServiceEvent) :
    Mirrors (events.foldl ServiceHandler.handle ServiceRegistry.new) events ↔
      UpdatesWrite events := by
  constructor
  · exact Mirrors.updatesWrite
  · intro updates key registered
    rw [lookup_foldl_handle_iff]
    constructor
    · rintro ⟨before, service, after, split, registers, unwritten⟩
      refine ⟨before, service, after, split, ?_, registers⟩
      intro later laterMem sameIdentity
      rcases (updates before service after key registered split registers).mp
        ⟨later, laterMem, sameIdentity⟩ with ⟨write, writeMem, writes⟩
      exact unwritten write writeMem writes
    · rintro ⟨before, service, after, split, last, registers⟩
      refine ⟨before, service, after, split, registers, ?_⟩
      intro later laterMem writes
      rcases (updates before service after key registered split registers).mpr
        ⟨later, laterMem, writes⟩ with ⟨update, updateMem, sameIdentity⟩
      exact last update updateMem sameIdentity

/-- A service, and the same service after an update that takes its selector away. -/
def selectingService : Service where
  metadata := { uid := some "1", name := some "web", ns := some "default", labels := none }
  spec := some { selector := some (Finmap.singleton "app" "web"), type := none }

def selectorlessService : Service where
  metadata := { uid := some "1", name := some "web", ns := some "default", labels := none }
  spec := some { selector := none, type := some "ExternalName" }

theorem exists_not_mirrored :
    ∃ events : List ServiceEvent,
      (∀ event ∈ events, event.service.metadata.name ≠ none ∧
        event.service.metadata.ns ≠ none) ∧
      ¬Mirrors (events.foldl ServiceHandler.handle ServiceRegistry.new) events := by
  refine ⟨[.apply selectingService, .apply selectorlessService], by decide, ?_⟩
  intro mirrors
  have follows := mirrors.updatesWrite [] selectingService [.apply selectorlessService]
    "default/web"
    { name := "web", serviceType := "ClusterIP", selector := Finmap.singleton "app" "web" }
    rfl (by decide +kernel)
  rcases follows.mp ⟨_, List.mem_singleton_self _, rfl⟩ with ⟨later, laterMem, write, written, -⟩
  rw [List.mem_singleton.mp laterMem] at written
  cases written

/-! ## The service of a pod -/

namespace ServiceRegistry

/-- The entry is held for a service of the namespace. -/
def HoldsIn (services : ServiceRegistry) (ns : String) (registered : RegisteredService) : Prop :=
  services.lookup (ns ++ "/" ++ registered.name) = some registered

/-- A search finds only services of the namespace that select the labels, and misses none. -/
def Scoped (services : ServiceRegistry) (ns : String) (labels : Labels)
    (found : Option (String × String)) : Prop :=
  (∀ name serviceType, found = some (name, serviceType) →
    ∃ registered, services.HoldsIn ns registered ∧ Selects registered.selector (some labels) ∧
      registered.name = name ∧ registered.serviceType = serviceType) ∧
  (found = none →
    ¬∃ registered, services.HoldsIn ns registered ∧ Selects registered.selector (some labels))

theorem findServiceForPod_eq_some {order : AList fun _ : String => RegisteredService} {pod : Pod}
    {name serviceType : String}
    (found : findServiceForPod order pod = some (name, serviceType)) :
    ∃ key registered, order.toFinmap.lookup key = some registered ∧
      Selects registered.selector pod.metadata.labels ∧ registered.name = name ∧
        registered.serviceType = serviceType := by
  unfold findServiceForPod at found
  cases labelled : pod.metadata.labels with
  | none => simp [labelled] at found
  | some labels =>
      simp only [labelled, Option.map_eq_some_iff, Prod.mk.injEq] at found
      rcases found with ⟨⟨key, registered⟩, first, rfl, rfl⟩
      refine ⟨key, registered, ?_, by simpa using List.find?_some first, rfl, rfl⟩
      exact Finmap.mem_entries_iff_lookup.mp (List.mem_of_find?_eq_some first)

theorem findServiceForPod_eq_none {order : AList fun _ : String => RegisteredService} {pod : Pod}
    {labels : Labels} (labelled : pod.metadata.labels = some labels)
    (missed : findServiceForPod order pod = none) {key : String}
    {registered : RegisteredService} (held : order.toFinmap.lookup key = some registered) :
    ¬Selects registered.selector (some labels) := by
  simp only [findServiceForPod, labelled, Option.map_eq_none_iff, List.find?_eq_none,
    decide_eq_true_eq] at missed
  exact missed ⟨key, registered⟩ (Finmap.mem_entries_iff_lookup.mpr held)

/-- Any held service that selects the pod is found in some listing. -/
theorem exists_listing_find {services : ServiceRegistry} {pod : Pod} {key : String}
    {registered : RegisteredService} (labelled : pod.metadata.labels ≠ none)
    (held : services.lookup key = some registered)
    (selects : Selects registered.selector pod.metadata.labels) :
    ∃ order : AList fun _ : String => RegisteredService, order.toFinmap = services ∧
      findServiceForPod order pod = some (registered.name, registered.serviceType) := by
  rcases Finmap.exists_listing_first held with ⟨order, others, listing, split⟩
  refine ⟨order, listing, ?_⟩
  rcases Option.ne_none_iff_exists'.mp labelled with ⟨labels, isLabels⟩
  rw [isLabels] at selects
  rw [findServiceForPod, isLabels]
  simp [split, selects]

/--
The search respects the namespace of a pod, in every listing of the registry, exactly when each
service that selects the pod has a namesake of the same type in this namespace that selects it too.
-/
theorem scoped_findServiceForPod_iff (calls : List Call) (pod : Pod) (labels : Labels)
    (ns : String) (labelled : pod.metadata.labels = some labels)
    (namespaced : pod.metadata.ns = some ns) :
    (∀ order : AList fun _ : String => RegisteredService, order.toFinmap = after calls →
      (after calls).Scoped (pod.metadata.ns.getD "") labels (findServiceForPod order pod)) ↔
      ∀ key registered, (after calls).lookup key = some registered →
        Selects registered.selector (some labels) →
          ∃ namesake, (after calls).HoldsIn ns namesake ∧
            Selects namesake.selector (some labels) ∧ namesake.name = registered.name ∧
              namesake.serviceType = registered.serviceType := by
  rw [namespaced, Option.getD_some]
  constructor
  · intro respects key registered held selects
    rw [← labelled] at selects
    rcases exists_listing_find (by simp [labelled]) held selects with ⟨order, listing, found⟩
    exact (respects order listing).1 _ _ found
  · intro namesakes order listing
    constructor
    · intro name serviceType found
      rcases findServiceForPod_eq_some found with ⟨key, registered, held, selects, rfl, rfl⟩
      rw [listing] at held
      rw [labelled] at selects
      exact namesakes key registered held selects
    · rintro missed ⟨registered, held, selects⟩
      rw [HoldsIn, ← listing] at held
      exact findServiceForPod_eq_none labelled missed held selects

/-- A service of another namespace selects the pod. -/
def otherNamespacePod : Pod where
  metadata :=
    { uid := some "2", name := some "web-1", ns := some "staging",
      labels := some (Finmap.singleton "app" "web") }
  status := some { podIp := some "10.0.0.5" }

theorem scoped_findServiceForPod_otherNamespacePod_iff :
    (∀ order : AList fun _ : String => RegisteredService,
      order.toFinmap = after [.register selectingService] →
        (after [.register selectingService]).Scoped (otherNamespacePod.metadata.ns.getD "")
          (Finmap.singleton "app" "web") (findServiceForPod order otherNamespacePod)) ↔
      ∀ key registered, (after [.register selectingService]).lookup key = some registered →
        Selects registered.selector (some (Finmap.singleton "app" "web")) →
          ∃ namesake, (after [.register selectingService]).HoldsIn "staging" namesake ∧
            Selects namesake.selector (some (Finmap.singleton "app" "web")) ∧
              namesake.name = registered.name ∧
                namesake.serviceType = registered.serviceType :=
  scoped_findServiceForPod_iff [.register selectingService] otherNamespacePod
    (Finmap.singleton "app" "web") "staging" rfl rfl

theorem exists_found_unscoped :
    ∃ (calls : List Call) (pod : Pod) (labels : Labels) (ns : String)
      (order : AList fun _ : String => RegisteredService),
      pod.metadata.labels = some labels ∧ pod.metadata.ns = some ns ∧
        order.toFinmap = after calls ∧
          ¬(after calls).Scoped ns labels (findServiceForPod order pod) := by
  refine ⟨[.register selectingService], otherNamespacePod, Finmap.singleton "app" "web", "staging",
    AList.singleton "default/web"
      { name := "web", serviceType := "ClusterIP", selector := Finmap.singleton "app" "web" },
    rfl, rfl, by decide +kernel, ?_⟩
  intro respects
  rcases respects.1 "web" "ClusterIP" (by decide +kernel) with ⟨registered, held, -, name, -⟩
  rw [HoldsIn, name] at held
  have absent : (after [.register selectingService]).lookup ("staging" ++ "/" ++ "web") = none := by
    decide +kernel
  rw [absent] at held
  cases held

end ServiceRegistry

end Qubit.Agent
