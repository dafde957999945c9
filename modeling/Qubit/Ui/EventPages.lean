import Qubit.Core.Pages
import Qubit.Ui.ResourceEvents
import Qubit.Ui.TopologyUtils

/-!
# The pages of the events page

`K8sEventsView` and `NetworkEventsView` ask Core for one page of a table at a time. The page in
the footer changes at once and the rows when an answer comes; answers come in any order, and the
last one wins. The buttons go by the total of the last answer.

The filters of the events page work on the page that is shown. Whoever looks for a line therefore
has to turn the pages; doing so from a fresh first page lists every line once, as far as the pages
partition the table.
-/

namespace Qubit.Ui

/-- Where the rows of a page come from, and how they are shown. -/
structure PagedSource (Raw Shown : Type) where
  pageSize : UInt64
  endpoint : PaginationParams → List Raw → List Raw → PagedResponse Raw
  normalize : Raw → Shown
  pageSize_pos : 0 < pageSize.toNat
  items_endpoint : ∀ page table order, (endpoint ⟨some page, some pageSize⟩ table order).items =
    Pieces.slice (page * pageSize).toNat pageSize.toNat order
  total_endpoint : ∀ page table order,
    (endpoint ⟨some page, some pageSize⟩ table order).total = UInt64.ofNat table.length

/-- What is shown, and the pages that have been asked for and not been answered. -/
structure Paged (Shown : Type) where
  rows : List Shown
  total : ℕ
  page : ℕ
  requests : List ℕ

inductive PageButton where
  | first
  | prev
  | next
  | last
deriving DecidableEq, Repr

namespace Paged

variable {Raw Shown : Type} (source : PagedSource Raw Shown) (view : Paged Shown)

def mounted (Shown : Type) : Paged Shown where
  rows := []
  total := 0
  page := 0
  requests := [0]

def totalPages : ℕ :=
  max 1 (pageCount view.total source.pageSize.toNat)

def fetchEvents (targetPage : ℕ) : Paged Shown :=
  { view with requests := view.requests ++ [targetPage] }

/-- The effect on the page asks for it when it has changed. -/
def setPage (page : ℕ) : Paged Shown :=
  if page = view.page then view else { view with page }.fetchEvents page

/-- The button is not disabled. -/
def Enabled : PageButton → Prop
  | .first | .prev => view.page ≠ 0
  | .next | .last => view.page < view.totalPages source - 1

instance : DecidablePred (view.Enabled source)
  | .first | .prev => inferInstanceAs (Decidable (_ ≠ _))
  | .next | .last => inferInstanceAs (Decidable (_ < _))

def target : PageButton → ℕ
  | .first => 0
  | .prev => view.page - 1
  | .next => min (view.totalPages source - 1) (view.page + 1)
  | .last => view.totalPages source - 1

def press (button : PageButton) : Paged Shown :=
  if view.Enabled source button then view.setPage (view.target source button) else view

/-- An answer of Core, whose queries see a table and an ordering of it. -/
def answer (index : ℕ) (table order : List Raw) : Paged Shown :=
  match view.requests[index]? with
  | some targetPage =>
      let data := source.endpoint ⟨some (UInt64.ofNat targetPage), some source.pageSize⟩ table order
      { view with
        rows := data.items.map source.normalize
        total := data.total.toNat
        requests := view.requests.eraseIdx index }
  | none => view

def fail (index : ℕ) : Paged Shown :=
  { view with requests := view.requests.eraseIdx index }

/-- What happens to the page, the timer being one more reason to refresh. -/
inductive Action (Raw : Type) where
  | press (button : PageButton)
  | refresh
  | answer (index : ℕ) (table order : List Raw)
  | fail (index : ℕ)

def step (view : Paged Shown) : Action Raw → Paged Shown
  | .press button => view.press source button
  | .refresh => view.fetchEvents view.page
  | .answer index table order => view.answer source index table order
  | .fail index => view.fail index

def run (view : Paged Shown) (actions : List (Action Raw)) : Paged Shown :=
  actions.foldl (step source) view

/--
To the first page, a refresh of it, and then so many pages on, each answered before what follows.
On the first page the button is disabled, so without the refresh nothing need be asked for.
-/
def browsing (table landing : List Raw) (orders : ℕ → List Raw) (turns : ℕ) : List (Action Raw) :=
  [.press .first, .answer 0 table landing, .refresh, .answer 0 table (orders 0)] ++
    (List.range turns).flatMap fun turn => [.press .next, .answer 0 table (orders (turn + 1))]

variable {source view} in
theorem page_answer (index : ℕ) (table order : List Raw) :
    (view.answer source index table order).page = view.page := by
  rw [answer]
  split <;> rfl

variable {view} in
theorem page_setPage (page : ℕ) : (view.setPage page).page = page := by
  rw [setPage]
  split
  · rename_i same
    exact same.symm
  · rfl

/-! ## Turning the pages -/

/-- The page with these rows of the table, and nothing underway. -/
def settled (table : List Raw) (orders : ℕ → List Raw) (page : ℕ) : Paged Shown where
  rows := (Pieces.slice (page * source.pageSize.toNat) source.pageSize.toNat
    (orders page)).map source.normalize
  total := table.length
  page := page
  requests := []

variable {source view} {table : List Raw} {orders : ℕ → List Raw}

/-- The pages up to the last one do not wrap. -/
theorem toNat_offset (table_lt : table.length < 2 ^ 64) {page : ℕ}
    (page_lt : page < max 1 (pageCount table.length source.pageSize.toNat)) :
    (UInt64.ofNat page * source.pageSize).toNat = page * source.pageSize.toNat := by
  cases page with
  | zero => simp
  | succ page =>
      have inside : page + 1 < pageCount table.length source.pageSize.toNat := by omega
      exact (toNat_page_and_offset table_lt source.pageSize_pos inside).2

theorem answer_of_requests {page : ℕ} (asked : view.requests = [page]) (shown : view.page = page)
    (table_lt : table.length < 2 ^ 64)
    (page_lt : page < max 1 (pageCount table.length source.pageSize.toNat)) :
    view.answer source 0 table (orders page) = settled source table orders page := by
  simp only [answer, asked, List.getElem?_cons_zero, settled, source.items_endpoint,
    source.total_endpoint, toNat_offset table_lt page_lt, shown, List.eraseIdx_cons_zero]
  rw [UInt64.toNat_ofNat', Nat.mod_eq_of_lt table_lt]

@[simp]
theorem page_settled (page : ℕ) :
    (settled source table orders page : Paged Shown).page = page :=
  rfl

theorem totalPages_settled (page : ℕ) : (settled source table orders page).totalPages source =
    max 1 (pageCount table.length source.pageSize.toNat) :=
  rfl

/-- Pressing the first button, and an answer if it asks for one, lead to the first page. -/
theorem landed (source : PagedSource Raw Shown) (table : List Raw) (idle : view.requests = [])
    (landing : List Raw) :
    let landed := (view.press source .first).answer source 0 table landing
    landed.page = 0 ∧ landed.requests = [] := by
  intro landed
  by_cases start : view.page = 0
  · have disabled : ¬view.Enabled source .first := not_not_intro start
    have landed_eq : landed = view := by simp [landed, press, disabled, answer, idle]
    exact landed_eq ▸ ⟨start, idle⟩
  · have enabled : view.Enabled source .first := start
    simp [landed, press, enabled, setPage, target, Ne.symm start, fetchEvents, answer, idle]

/-- In front of the last page, the next button asks for the next one. -/
theorem press_next_settled {page : ℕ}
    (inside : page + 1 < max 1 (pageCount table.length source.pageSize.toNat)) :
    (settled source table orders page).press source .next =
      { settled source table orders page with page := page + 1, requests := [page + 1] } := by
  have enabled : (settled source table orders page).Enabled source .next := by
    rw [Enabled, totalPages_settled]
    exact Nat.lt_sub_of_add_lt inside
  have target_eq : (settled source table orders page).target source .next = page + 1 := by
    rw [target, totalPages_settled]
    exact min_eq_right (by rw [page_settled]; omega)
  rw [press, if_pos enabled, target_eq, setPage, page_settled, if_neg (Nat.succ_ne_self page)]
  rfl

theorem run_browsing (idle : view.requests = []) (table_lt : table.length < 2 ^ 64)
    (landing : List Raw) {turns : ℕ}
    (turns_lt : turns < max 1 (pageCount table.length source.pageSize.toNat)) :
    view.run source (browsing table landing orders turns) = settled source table orders turns := by
  induction turns with
  | zero =>
      rcases landed source table idle landing with ⟨start, answered⟩
      refine answer_of_requests ?_ start table_lt turns_lt
      simp only [step, fetchEvents, answered, start, List.nil_append]
  | succ turns ih =>
      have before := ih (by omega)
      rw [run] at before
      rw [run, browsing, List.range_succ, List.flatMap_append, ← List.append_assoc,
        List.foldl_append, ← browsing, before]
      simp only [List.flatMap_singleton, List.foldl_cons, List.foldl_nil, step,
        press_next_settled turns_lt]
      exact answer_of_requests rfl rfl table_lt turns_lt

/-- The pages add up to the table when no page boundary splits a tie. -/
theorem flatMap_rows_perm (source : PagedSource Raw Shown) {key : Raw → ℕ}
    (whole : ∀ page, ¬Pages.SplitsTie key table (page * source.pageSize.toNat))
    (orderings : ∀ page, Pages.IsOrdering key table (orders page)) :
    ((List.range (max 1 (pageCount table.length source.pageSize.toNat))).flatMap fun page =>
      (settled source table orders page).rows).Perm (table.map source.normalize) := by
  have enough : table.length ≤
      max 1 (pageCount table.length source.pageSize.toNat) * source.pageSize.toNat :=
    (Pieces.le_ceil_mul source.pageSize.toNat table.length source.pageSize_pos).trans
      (Nat.mul_le_mul_right _ (le_max_right _ _))
  have read := ((Pages.pages_perm_iff enough).mpr whole orders orderings).map source.normalize
  rwa [List.map_flatMap] at read

end Paged

/-- What the toolbar of the events page filters by; `none` is all types. -/
structure EventFilters where
  search : String
  typeFilter : Option EventType
  nsFilter : String

namespace EventFilters

variable (builtins : Builtins) (filters : EventFilters)

/-- Looking into a message that is not a text fails. -/
def matchesSearch (line : K8sEvent) : Option Bool :=
  let q := builtins.toLowerCase filters.search
  let includes (v : String) : Bool := q.toList <:+: (builtins.toLowerCase v).toList
  if q = "" ∨ [line.kind, line.ns, line.name].any includes then some true
  else match line.message with
    | .string text => some (includes text)
    | _ => none

def keeps (line : K8sEvent) : Option Bool :=
  (filters.matchesSearch builtins line).map fun found =>
    found && decide (filters.typeFilter = none ∨ filters.typeFilter = some line.type) &&
      decide (filters.nsFilter = "All" ∨ filters.nsFilter = line.ns)

end EventFilters

structure K8sEventsView extends Paged K8sEvent where
  filters : EventFilters
  allNamespaces : List String

namespace K8sEventsView

variable (builtins : Builtins) (view : K8sEventsView)

def mounted : K8sEventsView where
  toPaged := Paged.mounted K8sEvent
  filters := { search := "", typeFilter := none, nsFilter := "All" }
  allNamespaces := []

def source : PagedSource K8sResourceEvent K8sEvent where
  pageSize := 50
  endpoint := Handler.k8sEvents
  normalize := normalize builtins
  pageSize_pos := by decide
  items_endpoint page _ order := items_paged (by decide) page order
  total_endpoint _ _ _ := rfl

def mergeNamespaces (prev : List String) (normalised : List K8sEvent) : List String :=
  (prev ++ normalised.map K8sEvent.ns).dedup.mergeSort fun ns other => utf16 ns ≤ utf16 other

def nsOptions : List String :=
  "All" :: view.allNamespaces

inductive Action where
  | turn (action : Paged.Action K8sResourceEvent)
  | search (v : String)
  | type (v : Option EventType)
  | ns (v : String)

def step (view : K8sEventsView) : Action → K8sEventsView
  | .turn action =>
      let turned := view.toPaged.step (source builtins) action
      { view with
        toPaged := turned
        allNamespaces :=
          match action with
          | .answer index _ _ =>
              if index < view.requests.length then mergeNamespaces view.allNamespaces turned.rows
              else view.allNamespaces
          | _ => view.allNamespaces }
  -- a page that has no matching lines is left
  | .search v =>
      { view with toPaged := view.setPage 0, filters := { view.filters with search := v } }
  | .type v =>
      { view with toPaged := view.setPage 0, filters := { view.filters with typeFilter := v } }
  | .ns v =>
      if v ∈ view.nsOptions then
        { view with toPaged := view.setPage 0, filters := { view.filters with nsFilter := v } }
      else view

def run (actions : List Action) : K8sEventsView :=
  actions.foldl (step builtins) view

/-- The lines on the page that pass the filters, unless looking for them fails. -/
def filtered : Option (List K8sEvent) :=
  if ∀ line ∈ view.rows, (view.filters.keeps builtins line).isSome then
    some (view.rows.filter fun line => view.filters.keeps builtins line = some true)
  else none

/-- The namespaces to choose from have those of the lines shown, and the chosen one. -/
structure OffersNamespaces : Prop where
  nodup : view.allNamespaces.Nodup
  shown : ∀ line ∈ view.rows, line.ns ∈ view.allNamespaces
  chosen : view.filters.nsFilter ∈ view.nsOptions

/--
Going to the first page, refreshing it and pressing the next button until it is disabled shows
every row of the table that passes the filters once, with the tied rows in a new order for each
page.
-/
def ListsOnce (table : List K8sResourceEvent) : Prop :=
  let pages := max 1 (pageCount table.length 50)
  ∀ (landing : List K8sResourceEvent) (orders : ℕ → List K8sResourceEvent),
    (∀ page, Pages.IsOrdering (fun row => row.eventTime.toNat) table (orders page)) →
    let turned := fun page =>
      view.run builtins ((Paged.browsing table landing orders page).map .turn)
    (∀ page < pages, (turned page).page = page ∧
      ((turned page).Enabled (source builtins) .next ↔ page + 1 < pages) ∧
      ((turned page).filtered builtins).isSome) ∧
    ((List.range pages).flatMap fun page => ((turned page).filtered builtins).getD []).Perm
      ((table.map (normalize builtins)).filter fun line =>
        view.filters.keeps builtins line = some true)

variable {builtins view}

theorem mem_mergeNamespaces {prev : List String} {normalised : List K8sEvent} {ns : String} :
    ns ∈ mergeNamespaces prev normalised ↔
      ns ∈ prev ∨ ∃ line ∈ normalised, line.ns = ns := by
  rw [mergeNamespaces, List.mem_mergeSort, List.mem_dedup, List.mem_append, List.mem_map]

theorem nodup_mergeNamespaces (prev : List String) (normalised : List K8sEvent) :
    (mergeNamespaces prev normalised).Nodup :=
  (List.mergeSort_perm _ _).nodup_iff.mpr (List.nodup_dedup _)

/-- The rows change with an answer only. -/
theorem rows_setPage (page : ℕ) : (view.setPage page).rows = view.rows := by
  rw [Paged.setPage]
  split <;> rfl

theorem OffersNamespaces.turn (offers : view.OffersNamespaces)
    (action : Paged.Action K8sResourceEvent) :
    (view.step builtins (.turn action)).OffersNamespaces := by
  cases action with
  | press button =>
      refine ⟨offers.nodup, ?_, offers.chosen⟩
      have kept : (view.press (source builtins) button).rows = view.rows := by
        rw [Paged.press]
        split
        · exact rows_setPage _
        · rfl
      simp only [step, Paged.step, kept]
      exact offers.shown
  | refresh => exact ⟨offers.nodup, offers.shown, offers.chosen⟩
  | answer index table order =>
      by_cases underway : index < view.requests.length
      · simp only [step, if_pos underway]
        refine ⟨nodup_mergeNamespaces _ _, ?_, ?_⟩
        · intro line lineMem
          exact mem_mergeNamespaces.mpr (Or.inr ⟨line, lineMem, rfl⟩)
        · rcases List.mem_cons.mp offers.chosen with all | old
          · exact List.mem_cons.mpr (Or.inl all)
          · exact List.mem_cons_of_mem _ (mem_mergeNamespaces.mpr (Or.inl old))
      · have ignored : view.answer (source builtins) index table order = view.toPaged := by
          rw [Paged.answer, List.getElem?_eq_none (not_lt.mp underway)]
        simp only [step, Paged.step, if_neg underway, ignored]
        exact offers
  | fail index => exact ⟨offers.nodup, offers.shown, offers.chosen⟩

/-- The list of namespaces keeps up with the lines, whatever the order of answers and choices. -/
theorem offersNamespaces_run (actions : List Action) :
    (mounted.run builtins actions).OffersNamespaces := by
  have atFirst : mounted.OffersNamespaces :=
    ⟨List.nodup_nil, fun _ none => absurd none List.not_mem_nil, List.mem_cons_self⟩
  refine List.foldlRecOn actions (step builtins) atFirst ?_
  intro view offers action _
  have shown : ∀ line ∈ (view.setPage 0).rows, line.ns ∈ view.allNamespaces := by
    rw [rows_setPage]
    exact offers.shown
  cases action with
  | turn action => exact offers.turn action
  | search v => exact ⟨offers.nodup, shown, offers.chosen⟩
  | type v => exact ⟨offers.nodup, shown, offers.chosen⟩
  | ns v =>
      simp only [step]
      split
      · rename_i offered
        exact ⟨offers.nodup, shown, offered⟩
      · exact offers

theorem run_turns (actions : List (Paged.Action K8sResourceEvent)) :
    (view.run builtins (actions.map .turn)).toPaged =
        view.toPaged.run (source builtins) actions ∧
      (view.run builtins (actions.map .turn)).filters = view.filters := by
  induction actions generalizing view with
  | nil => exact ⟨rfl, rfl⟩
  | cons action rest ih => exact ih

theorem isSome_keeps {filters : EventFilters} {line : K8sEvent} {text : String}
    (shown : line.message = .string text) : (filters.keeps builtins line).isSome := by
  rw [EventFilters.keeps, Option.isSome_map, EventFilters.matchesSearch, shown]
  split <;> rfl

/-- The rows of a settled page that pass the filters are shown. -/
theorem filtered_of_settled {table : List K8sResourceEvent} {orders : ℕ → List K8sResourceEvent}
    (texts : ∀ row ∈ table, ∃ text, (normalize builtins row).message = .string text)
    {page : ℕ} (ordering : (orders page).Perm table)
    (settled : view.toPaged = Paged.settled (source builtins) table orders page) :
    view.filtered builtins = some ((Paged.settled (source builtins) table orders page).rows.filter
      fun line => view.filters.keeps builtins line = some true) := by
  rw [filtered, settled]
  refine if_pos ?_
  intro line lineMem
  rcases List.mem_map.mp lineMem with ⟨row, rowMem, rfl⟩
  have stored : row ∈ table :=
    ordering.mem_iff.mp (List.mem_of_mem_drop (List.mem_of_mem_take rowMem))
  rcases texts row stored with ⟨text, shown⟩
  exact isSome_keeps shown

end K8sEventsView

open Agent Agent.Installation in
/--
Whatever has happened on the events page, once nothing is underway the user who goes to the first
page, refreshes it and goes on to the last one sees every stored row that passes the filters exactly
once, as long as no page boundary lies between two different rows of one second.
-/
theorem listed_once {builtins : Builtins} (conforms : builtins.Conforms)
    (fromStr : String → Option Yaml) (toString : (AList fun _ : String => String) → String)
    (actions : List Installation.Action)
    (table_lt : ((start []).run fromStr toString actions).table.length < 2 ^ 64)
    (whole : ∀ page, ¬Pages.SplitsTie (fun row : K8sResourceEvent => row.eventTime.toNat)
      ((start []).run fromStr toString actions).table (page * 50))
    {view : K8sEventsView} (idle : view.requests = []) :
    view.ListsOnce builtins ((start []).run fromStr toString actions).table := by
  generalize stored : ((start []).run fromStr toString actions).table = table at table_lt whole
  unfold K8sEventsView.ListsOnce
  intro pages landing orders orderings turned
  have texts : ∀ row ∈ table, ∃ text,
      (K8sEventsView.normalize builtins row).message = .string text :=
    fun row member => exists_text_of_mem_table conforms (stored ▸ member)
  have settled : ∀ page < pages, (turned page).toPaged =
      Paged.settled (K8sEventsView.source builtins) table orders page := by
    intro page page_lt
    rw [(K8sEventsView.run_turns _).1]
    exact Paged.run_browsing idle table_lt landing page_lt
  have filtered : ∀ page < pages, (turned page).filtered builtins =
      some ((Paged.settled (K8sEventsView.source builtins) table orders page).rows.filter
        fun line => view.filters.keeps builtins line = some true) := by
    intro page page_lt
    rw [K8sEventsView.filtered_of_settled texts (orderings page).perm (settled page page_lt),
      (K8sEventsView.run_turns _).2]
  refine ⟨?_, ?_⟩
  · intro page page_lt
    refine ⟨?_, ?_, ?_⟩
    · rw [settled page page_lt, Paged.page_settled]
    · rw [settled page page_lt, Paged.Enabled, Paged.totalPages_settled]
      exact Nat.lt_sub_iff_add_lt
    · rw [filtered page page_lt]
      rfl
  · have whole_table := Paged.flatMap_rows_perm (K8sEventsView.source builtins) whole orderings
    have read := whole_table.filter fun line => view.filters.keeps builtins line = some true
    rw [List.filter_flatMap] at read
    refine (List.Perm.of_eq (List.flatMap_congr ?_)).trans read
    intro page page_lt
    rw [filtered page (List.mem_range.mp page_lt), Option.getD_some]

open Agent.Installation in
/-- The user looks for deletions after the first request has failed. -/
theorem listed_once_backedOff :
    (K8sEventsView.mounted.run grammarBuiltins [.turn (.fail 0), .type (some .deleted)]).ListsOnce
      grammarBuiltins ((start []).run (fun _ => none) (fun _ => "\x7b\x7d") backedOff).table := by
  have length_eq : ((start []).run (fun _ => none) (fun _ => "\x7b\x7d")
      backedOff).table.length = 2 := by decide +kernel
  refine listed_once conforms_grammarBuiltins _ _ _ (by rw [length_eq]; decide) ?_ rfl
  intro page splits
  have inside := splits.lt_length
  rw [length_eq] at inside
  rcases splits with ⟨value, above_lt, -⟩
  omega

end Qubit.Ui
