import Qubit.Core.Aggregator

/-!
# What Core reads out of a host name

The labels of a host are the pieces between its dots, its port left out. A host is taken
for the name of a cluster service when a label after the first one starts with `svc`, and
then its first two labels are the service and the namespace. This is right when the third
label is `svc`, and other hosts get the name and the namespace of a service that is not
there.
-/

namespace Qubit

def hostLabels (host : String) : List String :=
  Text.split '.' (Text.upTo ':' host)

/-- A label after the first one starts with `svc`. -/
def HasServiceMark (host : String) : Prop :=
  ∃ label ∈ (hostLabels host).tail, "svc".toList <+: label.toList

theorem tail_hostLabels (host : String) :
    (hostLabels host).tail =
      ((Text.upTo ':' host).toList.splitOn '.').tail.map String.ofList := by
  rw [hostLabels, Text.split, List.map_tail]

theorem contains_svc_iff (host : String) :
    Text.Contains ".svc" (Text.upTo ':' host) ↔ HasServiceMark host := by
  have needle : ".svc".toList = '.' :: "svc".toList := by decide
  rw [Text.Contains, needle, Text.infix_iff_exists_piece (by decide), HasServiceMark,
    tail_hostLabels]
  simp only [List.mem_map, exists_exists_and_eq_and, String.toList_ofList]

theorem unaddressed_of_hasServiceMark {host : String} (marked : HasServiceMark host) :
    Ipv4.parse (Text.upTo ':' host) = none := by
  rcases marked with ⟨label, labelMem, starts⟩
  cases parsed : Ipv4.parse (Text.upTo ':' host) with
  | none => rfl
  | some addr =>
      rw [tail_hostLabels] at labelMem
      rcases List.mem_map.mp labelMem with ⟨piece, pieceMem, rfl⟩
      have digit := Ipv4.isDigit_of_parse parsed piece (List.mem_of_mem_tail pieceMem) 's'
        (by simpa using starts.subset (by decide : 's' ∈ "svc".toList))
      cases digit

theorem dotted_of_hasServiceMark {host : String} (marked : HasServiceMark host) :
    '.' ∈ (Text.upTo ':' host).toList :=
  ((contains_svc_iff host).mpr marked).subset (by decide)

theorem take_splitn_host (host : String) :
    ((Text.splitn 3 '.' (Text.upTo ':' host).toList).take 2).map String.ofList =
      (hostLabels host).take 2 := by
  rw [Text.take_splitn, hostLabels, Text.split, List.map_take]

/-- A host with a mark is read as the service of its first two labels. -/
theorem parseK8sHost_of_hasServiceMark {host svc ns : String} {more : List String}
    (labels : hostLabels host = svc :: ns :: more) (marked : HasServiceMark host) :
    parseK8sHost host = (svc, ns) := by
  have front := take_splitn_host host
  have unaddressed := unaddressed_of_hasServiceMark marked
  have dotted := dotted_of_hasServiceMark marked
  have contains := (contains_svc_iff host).mpr marked
  rw [labels] at front
  simp only [parseK8sHost, unaddressed, Option.isSome_none, Bool.false_eq_true, if_false, dotted,
    not_true_eq_false, contains, if_true]
  split
  · rename_i first second rest pieces
    simpa [pieces] using front
  · rename_i short
    cases pieces : Text.splitn 3 '.' (Text.upTo ':' host).toList with
    | nil => simp [pieces] at front
    | cons first rest =>
        cases rest with
        | nil => simp [pieces] at front
        | cons second rest => exact absurd pieces (short first second rest)

/-- A host without a mark is not read as a cluster service. -/
theorem ns_parseK8sHost_of_unmarked {host : String} (unmarked : ¬HasServiceMark host) :
    (parseK8sHost host).2 = "unknown" ∨ (parseK8sHost host).2 = "external" := by
  have absent := mt (contains_svc_iff host).mp unmarked
  simp only [parseK8sHost, absent, if_false]
  split
  · exact Or.inl rfl
  · split
    · exact Or.inl rfl
    · exact Or.inr rfl

theorem exists_hostLabels {host : String} (marked : HasServiceMark host) :
    ∃ svc ns more, hostLabels host = svc :: ns :: more := by
  rcases marked with ⟨label, labelMem, -⟩
  match labels : hostLabels host with
  | [] => simp [labels] at labelMem
  | [svc] => simp [labels] at labelMem
  | svc :: ns :: more => exact ⟨svc, ns, more, rfl⟩

/-! ## Hosts that are not services -/

/-- The host has the form `svc.ns.svc`, with any labels behind it, and is read as this service. -/
def ReadsService (host : String) : Prop :=
  ∃ svc ns more, hostLabels host = svc :: ns :: "svc" :: more ∧ parseK8sHost host = (svc, ns)

/--
A host gets the namespace of a cluster only if it is the name of a service exactly when it has no
mark, or the mark is its third label, or its second label is one of the two other namespaces.
-/
theorem readsService_parseK8sHost_iff (host : String) :
    ((parseK8sHost host).2 ≠ "unknown" → (parseK8sHost host).2 ≠ "external" → ReadsService host) ↔
      (HasServiceMark host → (hostLabels host)[2]? = some "svc" ∨
        (hostLabels host)[1]? = some "unknown" ∨ (hostLabels host)[1]? = some "external") := by
  by_cases marked : HasServiceMark host
  · rcases exists_hostLabels marked with ⟨svc, ns, more, labels⟩
    have parsed := parseK8sHost_of_hasServiceMark labels marked
    simp only [parsed, labels, ReadsService, marked, forall_const, List.getElem?_cons_succ,
      List.getElem?_cons_zero, Option.some.injEq]
    constructor
    · intro reads
      by_cases unknown : ns = "unknown"
      · exact Or.inr (Or.inl unknown)
      · by_cases isExternal : ns = "external"
        · exact Or.inr (Or.inr isExternal)
        · rcases reads unknown isExternal with ⟨svc', ns', more', same, -⟩
          left
          simp only [List.cons.injEq] at same
          simp [same.2.2]
    · rintro (third | unknown | isExternal) notUnknown notExternal
      · cases more with
        | nil => simp at third
        | cons label more =>
            obtain rfl : label = "svc" := by simpa using third
            exact ⟨svc, ns, more, rfl, rfl⟩
      · exact absurd unknown notUnknown
      · exact absurd isExternal notExternal
  · have other := ns_parseK8sHost_of_unmarked marked
    constructor
    · intro _ mark
      exact absurd mark marked
    · intro _ notUnknown notExternal
      rcases other with unknown | isExternal
      · exact absurd unknown notUnknown
      · exact absurd isExternal notExternal

/-- The doc counts every public domain among the hosts without a mark. -/
theorem not_readsService_publicDomain :
    parseK8sHost "www.svc-tools.com" = ("www", "svc-tools") ∧
      hostLabels "www.svc-tools.com" = ["www", "svc-tools", "com"] ∧
      ¬ReadsService "www.svc-tools.com" := by
  have labels : hostLabels "www.svc-tools.com" = ["www", "svc-tools", "com"] := by decide
  have parsed : parseK8sHost "www.svc-tools.com" = ("www", "svc-tools") := by decide
  refine ⟨parsed, labels, ?_⟩
  rintro ⟨svc, ns, more, same, -⟩
  rw [labels] at same
  simp at same

/-! ## Names of services -/

theorem upTo_port (name port : String) (portless : ':' ∉ name.toList) :
    Text.upTo ':' (name ++ ":" ++ port) = name := by
  rw [String.append_assoc, Text.upTo_append, if_neg portless, Text.upTo_append, if_pos (by decide)]
  simp [Text.upTo]

/-- A name `svc.ns.svc` with anything behind it up to a port. -/
theorem parseK8sHost_of_upTo {host svc ns suffix : String} (svcDotless : '.' ∉ svc.toList)
    (nsDotless : '.' ∉ ns.toList)
    (bare : Text.upTo ':' host = svc ++ "." ++ ns ++ ".svc" ++ suffix) :
    parseK8sHost host = (svc, ns) := by
  have chars : (svc ++ "." ++ ns ++ ".svc" ++ suffix).toList =
      svc.toList ++ '.' :: (ns.toList ++ '.' :: ("svc".toList ++ suffix.toList)) := by
    simp
  rcases List.exists_cons_of_ne_nil (List.splitOn_ne_nil '.' suffix.toList) with
    ⟨first, more, suffix_eq⟩
  have labels : hostLabels host =
      svc :: ns :: String.ofList ("svc".toList ++ first) :: more.map String.ofList := by
    rw [hostLabels, bare, Text.split, chars, List.splitOn_append_cons_self_of_not_mem svcDotless,
      List.splitOn_append_cons_self_of_not_mem nsDotless,
      Text.splitOn_append_of_notMem (by decide), suffix_eq]
    simp
  apply parseK8sHost_of_hasServiceMark labels
  refine ⟨String.ofList ("svc".toList ++ first), by simp [labels], ?_⟩
  simp

/-- A service is found by its name in every form, and a single label is the name of a service. -/
theorem parseK8sHost_serviceName :
    (∀ svc ns suffix port : String, '.' ∉ svc.toList → ':' ∉ svc.toList → '.' ∉ ns.toList →
        ':' ∉ ns.toList → ':' ∉ suffix.toList →
          parseK8sHost (svc ++ "." ++ ns ++ ".svc" ++ suffix) = (svc, ns) ∧
            parseK8sHost (svc ++ "." ++ ns ++ ".svc" ++ suffix ++ ":" ++ port) = (svc, ns)) ∧
      ∀ name : String, '.' ∉ name.toList → ':' ∉ name.toList →
        parseK8sHost name = (name, "unknown") := by
  constructor
  · intro svc ns suffix port svcDotless svcPortless nsDotless nsPortless suffixPortless
    have portless : ':' ∉ (svc ++ "." ++ ns ++ ".svc" ++ suffix).toList := by
      simp [svcPortless, nsPortless, suffixPortless]
    exact ⟨parseK8sHost_of_upTo svcDotless nsDotless (Text.upTo_eq_self portless),
      parseK8sHost_of_upTo svcDotless nsDotless (upTo_port _ port portless)⟩
  · intro name dotless portless
    have bare := Text.upTo_eq_self portless
    simp [parseK8sHost, bare, dotless]

theorem parseK8sHost_serviceName_port :
    (parseK8sHost ("service-b" ++ "." ++ "default" ++ ".svc" ++ ".cluster.local") =
        ("service-b", "default") ∧
      parseK8sHost ("service-b" ++ "." ++ "default" ++ ".svc" ++ ".cluster.local" ++ ":" ++ "80") =
        ("service-b", "default")) ∧
      parseK8sHost "service-b" = ("service-b", "unknown") :=
  ⟨parseK8sHost_serviceName.1 "service-b" "default" ".cluster.local" "80" (by decide) (by decide)
    (by decide) (by decide) (by decide),
    parseK8sHost_serviceName.2 "service-b" (by decide) (by decide)⟩

end Qubit
