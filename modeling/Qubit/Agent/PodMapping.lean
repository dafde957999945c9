import Mathlib.Data.List.Perm.Basic
import Qubit.Agent.PodHandler

/-!
# The pod mapping that Core ends with

Two questions about a history of pod events. Does a running pod keep its entry when
the messages arrive in order? It does unless another pod that carries the same IP is
deleted after the last apply, since a delete message names the IP only. And do the
messages converge when they arrive in any order? The handler starts a task for each
event and a message carries no version, so Core ends with the right entries exactly
when the message delivered last about each IP is the one that was sent last.
-/

namespace Qubit.Agent

def WatchEvent.isDelete : WatchEvent → Bool
  | .apply _ _ => false
  | .delete _ => true

theorem WatchEvent.content_eq_none {event : WatchEvent} (deleted : event.isDelete = true) :
    event.content = none := by
  cases event with
  | apply pod services => cases deleted
  | delete pod => rfl

/-! ## A running pod -/

/--
Of a pod that was applied with an IP, and neither applied again nor deleted, while no other pod
was applied with the IP later: Core has the metadata that was sent for it, exactly when no other
pod that carries the IP was deleted later.
-/
theorem lookup_deliver_iff (state : CoreState) (before after : List WatchEvent) (pod : Pod)
    (services : AList fun _ : String => RegisteredService) (ip : String)
    (carries : PodHandler.podIp pod = some ip)
    (running : ∀ event ∈ after, event.identity ≠ (WatchEvent.apply pod services).identity)
    (latest : ∀ event ∈ after, event.isDelete = false → event.ip ≠ some ip) :
    (deliver state (messagesOf (before ++ .apply pod services :: after))).podCache.lookup ip =
        some (PodHandler.podInfo services pod) ↔
      ∀ event ∈ after, event.isDelete = true →
        event.identity ≠ (WatchEvent.apply pod services).identity → event.ip ≠ some ip := by
  have applied : (WatchEvent.apply pod services).write? =
      some { key := ip, value := some (PodHandler.podInfo services pod) } := by
    simp [WatchEvent.write?, WatchEvent.ip, WatchEvent.pod, WatchEvent.content, carries]
  rw [podCache_deliver, filterMap_writeOf_messagesOf, List.filterMap_append,
    List.filterMap_cons_some applied, KeyedWrite.lookup_replay, KeyedWrite.last_append,
    KeyedWrite.last_cons, if_pos rfl]
  cases last : KeyedWrite.last ip (after.filterMap WatchEvent.write?) with
  | none =>
      refine iff_of_true rfl ?_
      intro event member _ _ carried
      have written : event.write? = some { key := ip, value := event.content } := by
        rw [WatchEvent.write?, carried, Option.map_some]
      exact KeyedWrite.last_eq_none_iff.mp last _
        (List.mem_filterMap.mpr ⟨event, member, written⟩) rfl
  | some write =>
      rcases last_write?_eq_some.mp last with ⟨earlier, event, later, rfl, carried, rfl, -⟩
      have member : event ∈ earlier ++ event :: later :=
        List.mem_append_right _ List.mem_cons_self
      have deleted : event.isDelete = true := by
        cases kind : event.isDelete with
        | true => rfl
        | false => exact absurd carried (latest event member kind)
      refine iff_of_false ?_ ?_
      · simp [WatchEvent.content_eq_none deleted]
      · intro undeleted
        exact undeleted event member deleted (running event member) carried

/-- A job's pod that has ended, and the pod that got its IP. -/
def endedPod : Pod where
  metadata := { uid := some "1", name := some "job-1", ns := some "default", labels := none }
  status := some { podIp := some "10.0.0.5" }

def reusingPod : Pod where
  metadata := { uid := some "2", name := some "api-1", ns := some "default", labels := none }
  status := some { podIp := some "10.0.0.5" }

def otherPod : Pod where
  metadata := { uid := some "3", name := some "web-1", ns := some "default", labels := none }
  status := some { podIp := some "10.0.0.6" }

theorem lookup_deliver_reusingPod_iff :
    (deliver CoreState.empty (messagesOf
        ([.apply endedPod ∅, .delete endedPod] ++
          .apply reusingPod ∅ :: [.delete otherPod]))).podCache.lookup "10.0.0.5" =
        some (PodHandler.podInfo ∅ reusingPod) ↔
      ∀ event ∈ [WatchEvent.delete otherPod], event.isDelete = true →
        event.identity ≠ (WatchEvent.apply reusingPod ∅).identity → event.ip ≠ some "10.0.0.5" :=
  lookup_deliver_iff CoreState.empty [.apply endedPod ∅, .delete endedPod] [.delete otherPod]
    reusingPod ∅ "10.0.0.5" (by decide +kernel) (by decide +kernel) (by decide +kernel)

theorem exists_running_pod_lost :
    ∃ (before after : List WatchEvent) (pod : Pod)
      (services : AList fun _ : String => RegisteredService) (ip : String),
      PodHandler.podIp pod = some ip ∧
        (∀ event ∈ before ++ .apply pod services :: after, event.ip ≠ none) ∧
        (∀ event ∈ after, event.identity ≠ (WatchEvent.apply pod services).identity) ∧
        (∀ event ∈ after, event.isDelete = false → event.ip ≠ some ip) ∧
        (deliver CoreState.empty (messagesOf
          (before ++ .apply pod services :: after))).podCache.lookup ip ≠
            some (PodHandler.podInfo services pod) :=
  ⟨[.apply endedPod ∅], [.delete endedPod], reusingPod, ∅, "10.0.0.5", by decide +kernel,
    by decide +kernel, by decide +kernel, by decide +kernel, by decide +kernel⟩

/-! ## Delivery in any order -/

/-- No two pods ever carry the same IP, and a pod that has an IP keeps it. -/
structure OwnIps (history : List WatchEvent) : Prop where
  unshared : ∀ event ∈ history, ∀ other ∈ history,
    event.ip ≠ none → other.ip = event.ip → other.identity = event.identity
  constant : history.Pairwise fun event later =>
    later.identity = event.identity → event.ip ≠ none → later.ip = event.ip

/-- At the end of the history a pod with the IP is running, with the metadata of its last apply. -/
def Live (history : List WatchEvent) (ip : String) (info : PodInfo) : Prop :=
  ∃ before event after, history = before ++ event :: after ∧
    (∀ later ∈ after, later.identity ≠ event.identity) ∧
    event.ip = some ip ∧ event.content = some info

theorem lastWrite_eq_none_iff_of_perm {ip : String} {messages delivered : List PodEventRequest}
    (perm : delivered.Perm messages) :
    lastWrite ip delivered = none ↔ lastWrite ip messages = none := by
  simp only [lastWrite, KeyedWrite.last_eq_none_iff, (perm.filterMap writeOf).mem_iff]

/-- When pods have their own IPs, the last message sent about an IP tells whether it is live. -/
theorem live_iff {history : List WatchEvent} (ownIps : OwnIps history) {ip : String}
    {info : PodInfo} :
    Live history ip info ↔
      (lastWrite ip (messagesOf history)).bind KeyedWrite.value = some info := by
  rw [lastWrite, filterMap_writeOf_messagesOf, Option.bind_eq_some_iff]
  constructor
  · rintro ⟨before, event, after, rfl, lastOfPod, carried, content⟩
    refine ⟨{ key := ip, value := event.content }, ?_, content⟩
    rw [last_write?_eq_some]
    refine ⟨before, event, after, rfl, carried, rfl, ?_⟩
    intro later member laterCarried
    refine lastOfPod later member ?_
    refine ownIps.unshared event (List.mem_append_right _ List.mem_cons_self) later
      (List.mem_append_right _ (List.mem_cons_of_mem _ member)) ?_ ?_
    · rw [carried]
      exact Option.some_ne_none ip
    · rw [carried, laterCarried]
  · rintro ⟨write, last, content⟩
    rcases last_write?_eq_some.mp last with ⟨before, event, after, rfl, carried, rfl, uncarried⟩
    refine ⟨before, event, after, rfl, ?_, carried, content⟩
    intro later member samePod
    have constant := (List.pairwise_append.mp ownIps.constant).2.1
    have sameIp : later.ip = event.ip := by
      refine (List.pairwise_cons.mp constant).1 later member samePod ?_
      rw [carried]
      exact Option.some_ne_none ip
    exact uncarried later member (sameIp.trans carried)

/--
When pods have their own IPs: after any delivery of all messages, Core has exactly the running
pods with their metadata, exactly when the last message delivered about each IP says what the
last message sent about it says.
-/
theorem converges_iff (history : List WatchEvent) (ownIps : OwnIps history)
    (delivered : List PodEventRequest) (perm : delivered.Perm (messagesOf history)) :
    (∀ ip info, (deliver CoreState.empty delivered).podCache.lookup ip = some info ↔
        Live history ip info) ↔
      ∀ ip, lastWrite ip delivered = lastWrite ip (messagesOf history) := by
  simp only [live_iff ownIps, lookup_deliver_empty]
  constructor
  · intro converged ip
    cases deliveredLast : lastWrite ip delivered with
    | none => exact ((lastWrite_eq_none_iff_of_perm perm).mp deliveredLast).symm
    | some write =>
        cases sentLast : lastWrite ip (messagesOf history) with
        | none =>
            rw [(lastWrite_eq_none_iff_of_perm perm).mpr sentLast] at deliveredLast
            cases deliveredLast
        | some sent =>
            have sameValue : write.value = sent.value := by
              have values := converged ip
              simp only [deliveredLast, sentLast, Option.bind_some] at values
              exact Option.ext fun info => values info
            have sameKey : write.key = sent.key :=
              (key_of_lastWrite deliveredLast).trans (key_of_lastWrite sentLast).symm
            cases write
            cases sent
            simp only at sameKey sameValue
            rw [sameKey, sameValue]
  · intro sameLast ip info
    rw [sameLast ip]

theorem converges_two_pods_iff :
    (∀ ip info, (deliver CoreState.empty
        (messagesOf [.apply endedPod ∅, .apply otherPod ∅]).reverse).podCache.lookup ip =
          some info ↔ Live [.apply endedPod ∅, .apply otherPod ∅] ip info) ↔
      ∀ ip, lastWrite ip (messagesOf [.apply endedPod ∅, .apply otherPod ∅]).reverse =
        lastWrite ip (messagesOf [.apply endedPod ∅, .apply otherPod ∅]) :=
  converges_iff [.apply endedPod ∅, .apply otherPod ∅]
    ⟨by decide +kernel, by decide +kernel⟩
    (messagesOf [.apply endedPod ∅, .apply otherPod ∅]).reverse (List.reverse_perm _)

theorem exists_diverging_delivery :
    ∃ (history : List WatchEvent) (delivered : List PodEventRequest), OwnIps history ∧
      delivered.Perm (messagesOf history) ∧
        ¬∀ ip info, (deliver CoreState.empty delivered).podCache.lookup ip = some info ↔
          Live history ip info := by
  have ownIps : OwnIps [.apply endedPod ∅, .delete endedPod] :=
    ⟨by decide +kernel, by decide +kernel⟩
  refine ⟨[.apply endedPod ∅, .delete endedPod],
    (messagesOf [.apply endedPod ∅, .delete endedPod]).reverse, ownIps,
    List.reverse_perm _, ?_⟩
  intro converged
  have live := (converged "10.0.0.5" (PodHandler.podInfo ∅ endedPod)).mp (by decide +kernel)
  rw [live_iff ownIps] at live
  revert live
  decide +kernel

end Qubit.Agent
