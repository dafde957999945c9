import Mathlib.Algebra.Order.Ring.Nat
import Mathlib.Data.Int.GCD
import Mathlib.Data.Nat.Prime.Basic
import Qubit.Core.Storage
import Qubit.Lib.Pages

/-!
# The paginated endpoints

`GET /api/network-events` and `GET /api/k8s-events` answer with a page of a table, newest
rows first, and the number of its rows. ClickHouse returns the limit and offset window of
some ordering of the rows by the sort column; rows with one timestamp may be ordered
differently in every query, and all rows of one flush have one timestamp. The offset is
the product of two 64-bit numbers and wraps.
-/

namespace Qubit

structure K8sResourceEvent where
  eventTime : UInt32
  resourceType : String
  name : String
  ns : String
  eventType : String
  labels : String
  resourceData : String
deriving DecidableEq, Repr

/-- The query parameters; both may be missing. -/
structure PaginationParams where
  page : Option UInt64
  pageSize : Option UInt64

structure PagedResponse (Row : Type) where
  items : List Row
  total : UInt64
  page : UInt64
  pageSize : UInt64

/--
The rows of a page and the number of rows: `count()` of the table, and the window
`LIMIT pageSize OFFSET offset` of the ordering that the second query sees.
-/
def DAO.getPaginated {Row : Type} (table order : List Row) (page pageSize : UInt64) :
    List Row × UInt64 :=
  let offset := page * pageSize
  (Pieces.slice offset.toNat pageSize.toNat order, UInt64.ofNat table.length)

namespace Handler

def paged {Row : Type} (defaultSize maxSize : UInt64) (params : PaginationParams)
    (table order : List Row) : PagedResponse Row :=
  let page := params.page.getD 0
  let pageSize := min (params.pageSize.getD defaultSize) maxSize
  let (items, total) := DAO.getPaginated table order page pageSize
  { items, total, page, pageSize }

/-- `ORDER BY event_time DESC`. -/
def k8sEvents (params : PaginationParams) (table order : List K8sResourceEvent) :
    PagedResponse K8sResourceEvent :=
  paged 50 200 params table order

/-- `ORDER BY timestamp_ns DESC`. -/
def networkEvents (params : PaginationParams) (table order : List EbpfNetworkEvent) :
    PagedResponse EbpfNetworkEvent :=
  paged 100 500 params table order

end Handler

/-- The number of pages of `pageSize` rows. -/
def pageCount (total pageSize : ℕ) : ℕ :=
  (total + pageSize - 1) / pageSize

/--
Reading every page of a table once, with the tied rows in a new order for each page, returns
every row exactly once, and the pages behind them are empty.
-/
def PagesPartition {Row : Type} (endpoint : PaginationParams → List Row → List Row →
    PagedResponse Row) (key : Row → ℕ) (table : List Row) (pageSize : UInt64) : Prop :=
  ∀ orders : UInt64 → List Row, (∀ page, Pages.IsOrdering key table (orders page)) →
    ((List.range (pageCount table.length pageSize.toNat)).flatMap fun page =>
      (endpoint ⟨some (UInt64.ofNat page), some pageSize⟩ table
        (orders (UInt64.ofNat page))).items).Perm table ∧
    ∀ page : UInt64, pageCount table.length pageSize.toNat ≤ page.toNat →
      (endpoint ⟨some page, some pageSize⟩ table (orders page)).items = []

/-! ## The offset -/

section Offset

variable {total size : ℕ}

theorem mul_lt_of_lt_pageCount {page : ℕ} (positive : 0 < size)
    (page_lt : page < pageCount total size) : page * size < total := by
  have := (Nat.le_div_iff_mul_le positive).mp (Nat.succ_le_of_lt page_lt)
  rw [Nat.succ_mul] at this
  omega

theorem pageCount_le {page : ℕ} (positive : 0 < size) (le : total ≤ page * size) :
    pageCount total size ≤ page := by
  apply Nat.lt_succ_iff.mp
  rw [pageCount, Nat.div_lt_iff_lt_mul positive, Nat.succ_mul]
  omega

theorem coprime_range (odd : size % 2 = 1) : Nat.Coprime size (2 ^ 64) :=
  Nat.Coprime.pow_right 64 (Nat.coprime_two_right.mpr (Nat.odd_iff.mpr odd))

/-- The offset of a late page wraps around to one that is inside the table. -/
theorem exists_wrapped {total : ℕ} {size : UInt64} (total_lt : total < 2 ^ 64)
    (total_pos : 0 < total) (size_gt : 1 < size.toNat)
    (inside : ¬(size.toNat % 2 = 1 ∧ total ≤ 1)) :
    ∃ page : UInt64, pageCount total size.toNat ≤ page.toNat ∧ (page * size).toNat < total := by
  by_cases even : size.toNat % 2 = 0
  · -- Half the range times an even size is a multiple of the range.
    refine ⟨UInt64.ofNat (2 ^ 63), ?_, ?_⟩
    · have half : (UInt64.ofNat (2 ^ 63)).toNat = 2 ^ 63 := rfl
      rw [half]
      apply pageCount_le (by omega)
      omega
    · have wrapped : (UInt64.ofNat (2 ^ 63) * size).toNat = 0 := by
        rw [UInt64.toNat_mul]
        have half : (UInt64.ofNat (2 ^ 63)).toNat = 2 ^ 63 := rfl
        rw [half]
        omega
      omega
  · -- An odd size has an inverse, which lies behind the last page.
    have odd : size.toNat % 2 = 1 := by omega
    rcases Nat.exists_mul_mod_eq_one_of_coprime (coprime_range odd) (by decide) with
      ⟨inverse, -, inverse_eq⟩
    have offset_eq : (UInt64.ofNat inverse * size).toNat = 1 := by
      rw [UInt64.toNat_mul, UInt64.toNat_ofNat', Nat.mod_mul_mod, Nat.mul_comm]
      exact inverse_eq
    refine ⟨UInt64.ofNat inverse, ?_, by omega⟩
    by_contra early
    have offset_lt := mul_lt_of_lt_pageCount (by omega) (not_le.mp early)
    rw [UInt64.toNat_mul, Nat.mod_eq_of_lt (by omega)] at offset_eq
    have := Nat.eq_one_of_mul_eq_one_left offset_eq
    omega

/-- Pages behind the last one stay behind the table exactly when the offset cannot wrap into it. -/
theorem late_offset_iff {total : ℕ} {size : UInt64} (total_lt : total < 2 ^ 64)
    (positive : 0 < size.toNat) :
    (∀ page : UInt64, pageCount total size.toNat ≤ page.toNat →
        total ≤ (page * size).toNat) ↔
      total = 0 ∨ size.toNat = 1 ∨ size.toNat % 2 = 1 ∧ total ≤ 1 := by
  constructor
  · intro behind
    by_contra wraps
    rw [not_or, not_or] at wraps
    rcases exists_wrapped total_lt (by omega) (by omega) wraps.2.2 with ⟨page, late, inside⟩
    have := behind page late
    omega
  · rintro (empty | one | ⟨odd, le_one⟩) page late
    · omega
    · rw [UInt64.toNat_mul, one, Nat.mul_one, Nat.mod_eq_of_lt page.toNat_lt]
      rwa [one, pageCount, Nat.add_sub_cancel, Nat.div_one] at late
    · by_contra inside
      have offset_eq : page.toNat * size.toNat % 2 ^ 64 = 0 := by
        rw [← UInt64.toNat_mul]
        omega
      have page_eq := Nat.eq_zero_of_dvd_of_lt
        ((coprime_range odd).symm.dvd_of_dvd_mul_right (Nat.dvd_of_mod_eq_zero offset_eq))
        page.toNat_lt
      have reached := Pieces.le_ceil_mul size.toNat total positive
      rw [page_eq, Nat.le_zero, pageCount] at late
      rw [late, Nat.zero_mul] at reached
      omega

end Offset

/-! ## Pages of a table -/

section Table

variable {Row : Type} {key : Row → ℕ} {table : List Row} {pageSize : UInt64}

/-- Below the limit of the endpoint, a page is the window at its offset. -/
theorem items_paged {defaultSize maxSize : UInt64} (size_le : pageSize ≤ maxSize)
    (page : UInt64) (order : List Row) :
    (Handler.paged defaultSize maxSize ⟨some page, some pageSize⟩ table order).items =
      Pieces.slice (page * pageSize).toNat pageSize.toNat order := by
  have size_eq : min pageSize maxSize = pageSize := if_pos size_le
  simp only [Handler.paged, DAO.getPaginated, Option.getD_some, size_eq]

theorem slice_eq_nil_iff {start size : ℕ} (positive : 0 < size) {order : List Row} :
    Pieces.slice start size order = [] ↔ order.length ≤ start := by
  rw [Pieces.slice, List.take_eq_nil_iff, List.drop_eq_nil_iff]
  omega

/-- Before the end of the table neither the page number nor the offset wraps. -/
theorem toNat_page_and_offset {page : ℕ} (table_lt : table.length < 2 ^ 64)
    (positive : 0 < pageSize.toNat) (page_lt : page < pageCount table.length pageSize.toNat) :
    (UInt64.ofNat page).toNat = page ∧
      (UInt64.ofNat page * pageSize).toNat = page * pageSize.toNat := by
  have offset_lt := mul_lt_of_lt_pageCount positive page_lt
  have page_le : page ≤ page * pageSize.toNat := Nat.le_mul_of_pos_right page positive
  have page_eq : (UInt64.ofNat page).toNat = page := by
    rw [UInt64.toNat_ofNat', Nat.mod_eq_of_lt (by omega)]
  refine ⟨page_eq, ?_⟩
  rw [UInt64.toNat_mul, page_eq, Nat.mod_eq_of_lt (by omega)]

theorem pagesPartition_paged_iff {defaultSize maxSize : UInt64} (size_le : pageSize ≤ maxSize)
    (positive : 1 ≤ pageSize) (table_lt : table.length < 2 ^ 64) :
    PagesPartition (Handler.paged defaultSize maxSize) key table pageSize ↔
      (∀ page, ¬Pages.SplitsTie key table (page * pageSize.toNat)) ∧
        (table.length = 0 ∨ pageSize.toNat = 1 ∨
          pageSize.toNat % 2 = 1 ∧ table.length ≤ 1) := by
  have size_pos : 0 < pageSize.toNat := positive
  have enough := Pieces.le_ceil_mul pageSize.toNat table.length size_pos
  rw [← Pages.pages_perm_iff enough, ← late_offset_iff table_lt size_pos]
  simp only [PagesPartition, items_paged size_le, slice_eq_nil_iff size_pos]
  have cut : ∀ orders : UInt64 → List Row,
      ((List.range (pageCount table.length pageSize.toNat)).flatMap fun page =>
        Pieces.slice (UInt64.ofNat page * pageSize).toNat pageSize.toNat
          (orders (UInt64.ofNat page))) =
      (List.range (pageCount table.length pageSize.toNat)).flatMap fun page =>
        Pieces.slice (page * pageSize.toNat) pageSize.toNat (orders (UInt64.ofNat page)) := by
    intro orders
    refine List.flatMap_congr ?_
    intro page page_lt
    rw [(toNat_page_and_offset table_lt size_pos (List.mem_range.mp page_lt)).2]
  constructor
  · intro partition
    refine ⟨?_, ?_⟩
    · intro orders orderings
      have read := (partition (fun page => orders page.toNat)
        fun page => orderings page.toNat).1
      rw [cut fun page => orders page.toNat] at read
      refine List.Perm.trans (List.Perm.of_eq ?_) read
      refine List.flatMap_congr ?_
      intro page page_lt
      rw [(toNat_page_and_offset table_lt size_pos (List.mem_range.mp page_lt)).1]
    · intro page late
      rcases Pages.exists_ordering key table with ⟨order, ordering⟩
      have behind := (partition (fun _ => order) fun _ => ordering).2 page late
      rwa [ordering.perm.length_eq] at behind
  · rintro ⟨covered, behind⟩ orders orderings
    refine ⟨?_, ?_⟩
    · rw [cut]
      exact covered (fun page => orders (UInt64.ofNat page)) fun page => orderings _
    · intro page late
      rw [(orderings page).perm.length_eq]
      exact behind page late

end Table

namespace Storage

/-- The tables that flushes of the topology lead to. -/
inductive Flushed : List EbpfNetworkEvent → Prop
  | empty : Flushed []
  | tick {table : List EbpfNetworkEvent} (flushed : Flushed table) (nowNs : UInt64)
      (downstream : AList fun _ : NodeId => List Flow) :
      Flushed (flushTick nowNs downstream table)

/--
The pages of the network events partition the table exactly when no page boundary lies between
two different rows of one timestamp and no late page wraps around: either there are no rows, or
one row a page, or at most one row and an odd page size.
-/
theorem pagesPartition_networkEvents_iff {table : List EbpfNetworkEvent}
    (table_lt : table.length < 2 ^ 64) {pageSize : UInt64} (positive : 1 ≤ pageSize)
    (size_le : pageSize ≤ 500) :
    PagesPartition Handler.networkEvents (fun row => row.timestampNs.toNat) table pageSize ↔
      (∀ page, ¬Pages.SplitsTie (fun row : EbpfNetworkEvent => row.timestampNs.toNat) table
        (page * pageSize.toNat)) ∧
        (table.length = 0 ∨ pageSize.toNat = 1 ∨
          pageSize.toNat % 2 = 1 ∧ table.length ≤ 1) :=
  pagesPartition_paged_iff size_le positive table_lt

/-- The database of `team-a` calls its backup. -/
def backupInTeamA : Flow where
  sourceNode := { applicationName := "db", ns := "team-a" }
  destinationNode := { applicationName := "backup", ns := "team-a" }
  path := "/dump"
  method := "POST"

/-- Two flows are in the topology when the first tick comes. -/
def twoFlows : AList fun _ : NodeId => List Flow :=
  (AList.singleton callInTeamA.sourceNode [callInTeamA]).insert backupInTeamA.sourceNode
    [backupInTeamA]

/-- The backup is read back before the next tick. -/
def restoreInTeamA : Flow where
  sourceNode := backupInTeamA.destinationNode
  destinationNode := backupInTeamA.sourceNode
  path := "/restore"
  method := "GET"

/-- Two rows of the first tick and one of a later tick. -/
def threeRows : List EbpfNetworkEvent :=
  flushTick 7 (twoFlows.insert restoreInTeamA.sourceNode [restoreInTeamA])
    (flushTick 1 twoFlows [])

theorem pagesPartition_threeRows_iff :
    PagesPartition Handler.networkEvents (fun row => row.timestampNs.toNat) threeRows 2 ↔
      (∀ page, ¬Pages.SplitsTie (fun row : EbpfNetworkEvent => row.timestampNs.toNat) threeRows
        (page * UInt64.toNat 2)) ∧
        (threeRows.length = 0 ∨ UInt64.toNat 2 = 1 ∨
          UInt64.toNat 2 % 2 = 1 ∧ threeRows.length ≤ 1) :=
  pagesPartition_networkEvents_iff (by decide +kernel) (by decide) (by decide)

example : threeRows.map (·.timestampNs) = [1, 1, 7] := by decide +kernel

theorem exists_pages_not_partition :
    ¬∀ table, Flushed table → ∀ pageSize : UInt64, 1 ≤ pageSize → pageSize ≤ 500 →
      PagesPartition Handler.networkEvents (fun row => row.timestampNs.toNat) table pageSize := by
  intro partition
  have orderings : ∀ page : UInt64, Pages.IsOrdering
      (fun row : EbpfNetworkEvent => row.timestampNs.toNat) (flushTick 1 twoFlows [])
      (if page = 0 then (flushTick 1 twoFlows []).reverse else flushTick 1 twoFlows []) := by
    intro page
    split
    · exact ⟨List.reverse_perm _, by decide +kernel⟩
    · exact ⟨List.Perm.refl _, by decide +kernel⟩
  have read := (partition _ (Flushed.empty.tick 1 twoFlows) 1 (by decide) (by decide) _
    orderings).1
  revert read
  decide +kernel

end Storage

end Qubit
