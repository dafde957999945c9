import Qubit.Agent.EnvoyParser
import Qubit.Core.HostNames

/-!
# Two readings of a service name

Core takes the first two labels of a marked name, the cluster agent the two labels before
the first `svc`. They agree when this label is the third one, and on names such as those
of the pods behind a headless service only when the labels repeat.
-/

namespace Qubit.Agent

/-- The two labels before the first `svc` are the first two labels. -/
def ServiceFirst (labels : List String) : Prop :=
  2 ≤ labels.idxOf "svc" ∧
    labels[labels.idxOf "svc" - 2]? = labels[0]? ∧ labels[labels.idxOf "svc" - 1]? = labels[1]?

theorem svcNamespaceFromFqdn_of_mem_labels {host : String}
    (marked : "svc" ∈ Text.split '.' host) :
    svcNamespaceFromFqdn host =
      if (Text.split '.' host).idxOf "svc" < 2 then none
      else some ((Text.split '.' host).getD ((Text.split '.' host).idxOf "svc" - 2) "",
        (Text.split '.' host).getD ((Text.split '.' host).idxOf "svc" - 1) "") := by
  have found : (Text.split '.' host).idxOf? "svc" = some ((Text.split '.' host).idxOf "svc") := by
    rw [List.idxOf_eq_getD_idxOf?]
    cases found : (Text.split '.' host).idxOf? "svc" with
    | none => exact absurd marked (List.idxOf?_eq_none_iff.mp found)
    | some svcPos => rfl
  simp only [svcNamespaceFromFqdn, found]

/-- A label `svc` behind the first two labels makes Core read the first two labels. -/
theorem parseK8sHost_of_mem_drop {host svc ns : String} {more : List String}
    (portless : ':' ∉ host.toList) (labels : Text.split '.' host = svc :: ns :: more)
    (marked : "svc" ∈ more) : parseK8sHost host = (svc, ns) := by
  have hostLabels_eq : hostLabels host = svc :: ns :: more := by
    rw [hostLabels, Text.upTo_eq_self portless, labels]
  apply parseK8sHost_of_hasServiceMark hostLabels_eq
  refine ⟨"svc", ?_, List.prefix_rfl⟩
  simp [hostLabels_eq, marked]

/-- The two parsers agree on a name exactly when the first `svc` is behind the first two labels. -/
theorem svcNamespaceFromFqdn_eq_parseK8sHost_iff {host : String} (portless : ':' ∉ host.toList)
    (marked : "svc" ∈ (Text.split '.' host).drop 2) :
    svcNamespaceFromFqdn host = some (parseK8sHost host) ↔ ServiceFirst (Text.split '.' host) := by
  have markedAnywhere : "svc" ∈ Text.split '.' host := List.mem_of_mem_drop marked
  have first_lt := List.idxOf_lt_length_of_mem markedAnywhere
  rw [svcNamespaceFromFqdn_of_mem_labels markedAnywhere]
  match labels : Text.split '.' host with
  | [] => simp [labels] at marked
  | [_] => simp [labels] at marked
  | svc :: ns :: more =>
      rw [labels] at marked first_lt
      rw [parseK8sHost_of_mem_drop portless labels marked, ServiceFirst,
        Option.ite_none_left_eq_some, Nat.not_lt]
      apply and_congr_right
      intro _
      rw [List.getD_eq_getElem?_getD, List.getD_eq_getElem?_getD,
        List.getElem?_eq_getElem (by omega), List.getElem?_eq_getElem (by omega)]
      simp

/-- The name of a service. -/
theorem svcNamespaceFromFqdn_eq_parseK8sHost_service :
    svcNamespaceFromFqdn "web.default.svc" = some (parseK8sHost "web.default.svc") ↔
      ServiceFirst (Text.split '.' "web.default.svc") :=
  svcNamespaceFromFqdn_eq_parseK8sHost_iff (by decide) (by decide)

/-- A pod behind the headless service `web`: Core takes the service for its namespace. -/
theorem svcNamespaceFromFqdn_ne_parseK8sHost_pod :
    ':' ∉ "web-0.web.default.svc".toList ∧
      "svc" ∈ (Text.split '.' "web-0.web.default.svc").drop 2 ∧
      parseK8sHost "web-0.web.default.svc" = ("web-0", "web") ∧
      svcNamespaceFromFqdn "web-0.web.default.svc" = some ("web", "default") := by
  decide

end Qubit.Agent
