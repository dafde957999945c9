import Mathlib.Data.Finmap

/-!
# Kubernetes objects and the service registry

The parts of pods and services that the cluster agent reads, and its registry of
service selectors. A label map is a finite map; the registry is a hash map, and the
search for the service of a pod goes through some listing of it.
-/

namespace Qubit.Agent

abbrev Labels := Finmap fun _ : String => String

structure ObjectMeta where
  /-- The cluster tells objects apart by it; no handler reads it. -/
  uid : Option String
  name : Option String
  ns : Option String
  labels : Option Labels
deriving DecidableEq

structure PodStatus where
  podIp : Option String
deriving DecidableEq

structure Pod where
  metadata : ObjectMeta
  status : Option PodStatus
deriving DecidableEq

structure ServiceSpec where
  selector : Option Labels
  type : Option String
deriving DecidableEq

structure Service where
  metadata : ObjectMeta
  spec : Option ServiceSpec
deriving DecidableEq

/-- Every pair of the selector is a label. -/
def Selects (selector : Labels) (labels : Option Labels) : Prop :=
  ∀ key ∈ selector.keys, labels.bind (·.lookup key) = selector.lookup key

instance (selector : Labels) (labels : Option Labels) : Decidable (Selects selector labels) :=
  inferInstanceAs (Decidable (∀ _ ∈ _, _))

structure RegisteredService where
  name : String
  serviceType : String
  selector : Labels
deriving DecidableEq

/-- The selectors of the known services, under `namespace/name`. -/
abbrev ServiceRegistry := Finmap fun _ : String => RegisteredService

namespace ServiceRegistry

def new : ServiceRegistry := ∅

def register (service : Service) (services : ServiceRegistry) : ServiceRegistry × String :=
  match service.metadata.name with
  | none => (services, "no service found!")
  | some name =>
      let ns := service.metadata.ns.getD ""
      match service.spec with
      | none => (services, "No spec found!")
      | some spec =>
          let selector := spec.selector.getD ∅
          -- services without selectors (e.g. ExternalName) do not manage pods
          if selector = ∅ then (services, "No selector found on service")
          else
            let serviceType := spec.type.getD "ClusterIP"
            (services.insert (ns ++ "/" ++ name) { name, serviceType, selector },
              "regisetered services")

def deregister (name ns : String) (services : ServiceRegistry) : ServiceRegistry × String :=
  (services.erase (ns ++ "/" ++ name), "deregisterd service")

/-- The first listed service whose selector the labels of the pod satisfy. -/
def findServiceForPod (services : AList fun _ : String => RegisteredService) (pod : Pod) :
    Option (String × String) :=
  match pod.metadata.labels with
  | none => none
  | some labels =>
      (services.entries.find? fun entry => Selects entry.2.selector (some labels)).map
        fun entry => (entry.2.name, entry.2.serviceType)

def registerAll (list : List Service) (services : ServiceRegistry) : ServiceRegistry :=
  list.foldl (fun services service => (register service services).1) services

end ServiceRegistry

end Qubit.Agent
