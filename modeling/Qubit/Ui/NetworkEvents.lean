import Qubit.Core.Backend
import Qubit.Ui.EventPages

/-!
# The page of the network events

`NetworkEventsView` is live until it is paused. A live page asks for the first page of the table
every few seconds; the other pages can be turned to only while it is paused. Going live again does
not take back what has been asked: an answer for another page that is late is shown as if it were
the newest one, until the next answer comes.
-/

namespace Qubit.Ui

structure NetworkRow where
  time : String
  method : String
  src : String
  dst : String
  path : String
deriving DecidableEq, Repr

structure NetworkEventsView extends Paged NetworkRow where
  paused : Bool

namespace NetworkEventsView

variable (builtins : Builtins) (toTime : UInt64 → String)

/-- The name of a service, with its namespace where that is known. -/
def serviceLabel (ns service : String) : String :=
  if ns ≠ "" ∧ ns ≠ "unknown" then ns ++ "/" ++ service else service

def normalize (raw : EbpfNetworkEvent) : NetworkRow where
  time := toTime raw.timestampNs
  method := builtins.toUpperCase raw.method
  src := serviceLabel raw.srcNamespace raw.srcService
  dst := serviceLabel raw.dstNamespace raw.dstService
  path := raw.path

def source : PagedSource EbpfNetworkEvent NetworkRow where
  pageSize := 100
  endpoint := Handler.networkEvents
  normalize := normalize builtins toTime
  pageSize_pos := by decide
  items_endpoint page _ order := items_paged (by decide) page order
  total_endpoint _ _ _ := rfl

def mounted : NetworkEventsView where
  toPaged := Paged.mounted NetworkRow
  paused := false

/-- The timer ticks while the page is live, and the buttons are there while it is paused. -/
inductive Action where
  | press (button : PageButton)
  | refresh
  | answer (index : ℕ) (table order : List EbpfNetworkEvent)
  | fail (index : ℕ)
  | liveTick
  | togglePause
deriving DecidableEq

variable (view : NetworkEventsView)

def step (view : NetworkEventsView) : Action → NetworkEventsView
  | .press button =>
      if view.paused then
        { view with toPaged := view.toPaged.press (source builtins toTime) button }
      else view
  | .refresh => { view with toPaged := view.fetchEvents view.page }
  | .answer index table order =>
      { view with toPaged := view.toPaged.answer (source builtins toTime) index table order }
  | .fail index => { view with toPaged := view.toPaged.fail index }
  | .liveTick =>
      if view.paused then view
      else { view with toPaged := (view.fetchEvents 0).setPage 0 }
  | .togglePause =>
      { view with
        toPaged := if view.paused then view.setPage 0 else view.toPaged
        paused := !view.paused }

def run (actions : List Action) : NetworkEventsView :=
  actions.foldl (step builtins toTime) view

/-- The unanswered requests for a page behind the first. -/
def behind : List ℕ :=
  view.requests.filter (· ≠ 0)

variable {builtins toTime view}

/-- Whenever the page is live, it is the first page that it names. -/
theorem page_step (live : view.paused = false → view.page = 0) (action : Action)
    (stillLive : (view.step builtins toTime action).paused = false) :
    (view.step builtins toTime action).page = 0 := by
  cases action with
  | press button =>
      rw [step] at stillLive ⊢
      split at stillLive
      · rename_i paused
        exact absurd stillLive (by simp [paused])
      · rename_i running
        rw [if_neg running]
        exact live stillLive
  | refresh => exact live stillLive
  | answer index table order => exact (Paged.page_answer _ _ _).trans (live stillLive)
  | fail index => exact live stillLive
  | liveTick =>
      rw [step] at stillLive ⊢
      split at stillLive
      · rename_i paused
        exact absurd stillLive (by simp [paused])
      · rename_i running
        rw [if_neg running]
        exact Paged.page_setPage _
  | togglePause =>
      have paused : view.paused = true := by simpa [step] using stillLive
      rw [step, if_pos paused]
      exact Paged.page_setPage _

theorem page_run (history : List Action)
    (live : (mounted.run builtins toTime history).paused = false) :
    (mounted.run builtins toTime history).page = 0 := by
  have reached : (mounted.run builtins toTime history).paused = false →
      (mounted.run builtins toTime history).page = 0 := by
    refine List.foldlRecOn (motive := fun view : NetworkEventsView =>
      view.paused = false → view.page = 0) history (step builtins toTime) (fun _ => rfl) ?_
    intro now live action _
    exact page_step live action
  exact reached live

/-- The page is live, and asks for no page behind the first but those asked for before. -/
structure IsLive (old : List ℕ) (view : NetworkEventsView) : Prop where
  running : view.paused = false
  page : view.page = 0
  onlyOld : view.behind.Sublist old

theorem IsLive.step {old : List ℕ} (isLive : IsLive old view) {action : Action}
    (stays : action ≠ .togglePause) : IsLive old (view.step builtins toTime action) := by
  have running : ¬view.paused = true := by simp [isLive.running]
  have asked : ((view.requests ++ [0]).filter (· ≠ 0)).Sublist old := by
    rw [List.filter_append]
    exact (List.append_nil _).symm ▸ isLive.onlyOld
  have answered (index : ℕ) : ((view.requests.eraseIdx index).filter (· ≠ 0)).Sublist old :=
    ((List.eraseIdx_sublist _ _).filter _).trans isLive.onlyOld
  cases action with
  | press button => rwa [NetworkEventsView.step, if_neg running]
  | refresh =>
      refine ⟨isLive.running, isLive.page, ?_⟩
      simp only [NetworkEventsView.step, Paged.fetchEvents, isLive.page]
      exact asked
  | answer index table order =>
      refine ⟨isLive.running, (Paged.page_answer _ _ _).trans isLive.page, ?_⟩
      simp only [NetworkEventsView.step, Paged.answer]
      split
      · exact answered index
      · exact isLive.onlyOld
  | fail index => exact ⟨isLive.running, isLive.page, answered index⟩
  | liveTick =>
      have unchanged : (view.fetchEvents 0).setPage 0 = view.fetchEvents 0 :=
        if_pos isLive.page.symm
      rw [NetworkEventsView.step, if_neg running, unchanged]
      exact ⟨isLive.running, isLive.page, asked⟩
  | togglePause => exact absurd rfl stays

/-- An answer to a request for the first page shows the newest rows. -/
theorem rows_answer {index : ℕ} (asked : view.requests[index]? = some 0)
    (table order : List EbpfNetworkEvent) :
    (view.step builtins toTime (.answer index table order)).rows =
      (order.take 100).map (normalize builtins toTime) := by
  have start : (UInt64.ofNat 0 * (source builtins toTime).pageSize).toNat = 0 := by simp
  simp only [step, Paged.answer, asked, (source builtins toTime).items_endpoint]
  rw [start]
  rfl

/--
While the page is live, from whatever state on, it names the first page and never asks for another
one. Every answer to a request for the first page shows the newest rows, and once the requests for
other pages that were still underway are answered, every answer does.
-/
theorem live_run (history actions : List Action)
    (live : (mounted.run builtins toTime history).paused = false)
    (stays : .togglePause ∉ actions) :
    let view := mounted.run builtins toTime history
    let now := view.run builtins toTime actions
    now.page = 0 ∧ now.behind.Sublist view.behind ∧
      (∀ index table order, now.requests[index]? = some 0 →
        (now.step builtins toTime (.answer index table order)).rows =
          (order.take 100).map (normalize builtins toTime)) ∧
      (now.behind = [] → ∀ index table order, index < now.requests.length →
        (now.step builtins toTime (.answer index table order)).rows =
          (order.take 100).map (normalize builtins toTime)) := by
  intro view now
  have isLive : IsLive view.behind now := by
    refine List.foldlRecOn actions (step builtins toTime)
      ⟨live, page_run history live, List.Sublist.refl _⟩ ?_
    intro now isLive action actionMem
    exact isLive.step fun toggles => stays (toggles ▸ actionMem)
  refine ⟨isLive.page, isLive.onlyOld, fun _ table order asked => rows_answer asked table order, ?_⟩
  intro none index table order inside
  refine rows_answer ?_ table order
  rw [List.getElem?_eq_getElem inside, Option.some.injEq]
  by_contra other
  have member : now.requests[index] ∈ now.behind :=
    List.mem_filter.mpr ⟨List.getElem_mem inside, by simpa using other⟩
  rw [none] at member
  exact List.not_mem_nil member

/-- One row more than a page holds; the second page is asked for, and the page goes live again. -/
def resumed : List Action :=
  let row := (Backend.callFrom "team-a").toEvent 7
  [.answer 0 (List.replicate 101 row) [row], .togglePause, .press .next, .togglePause]

def plainBuiltins : Builtins where
  jsonParse _ := none
  toUpperCase := id
  toLowerCase := id
  toLocaleTimeString _ := ""

theorem live_run_resumed :
    let view := mounted.run plainBuiltins (fun _ => "") resumed
    let now := view.run plainBuiltins (fun _ => "") [.liveTick, .fail 0]
    now.page = 0 ∧ now.behind.Sublist view.behind ∧
      (∀ index table order, now.requests[index]? = some 0 →
        (now.step plainBuiltins (fun _ => "") (.answer index table order)).rows =
          (order.take 100).map (normalize plainBuiltins fun _ => "")) ∧
      (now.behind = [] → ∀ index table order, index < now.requests.length →
        (now.step plainBuiltins (fun _ => "") (.answer index table order)).rows =
          (order.take 100).map (normalize plainBuiltins fun _ => "")) :=
  live_run resumed [.liveTick, .fail 0] (by decide +kernel) (by simp)

example : (mounted.run plainBuiltins (fun _ => "") resumed).behind = [1] := by decide +kernel

end NetworkEventsView

end Qubit.Ui
