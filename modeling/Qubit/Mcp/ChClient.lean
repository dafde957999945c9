import Qubit.Lib.SqlLexer

/-!
# The query texts of the MCP server

`ChClient` puts the optional filters of a tool call between quotes, after removing the
quotes from each. A value can still end its literal late: with a backslash at its end it
escapes the closing quote. A query is read as intended exactly when every supplied value
ends in an even number of backslashes. The table is configured and may be an expression
with literals of its own, which come in front of those of the values.
-/

namespace Qubit.Mcp

open SqlLexer (Plain Token backslash quote trailingBackslashes)

structure ChClient where
  ebpfTable : String
  k8sTable : String

/-- Strip single quotes. -/
def sanitize (input : String) : String :=
  String.ofList (input.toList.filter (· ≠ quote))

def filterCondition (column value : String) : String :=
  column ++ " = '" ++ sanitize value ++ "'"

/-- The text of a query for recent events, with a condition for each supplied filter. -/
def eventQuery (columns table timeCondition orderColumn : String)
    (filters : List (String × Option String)) : String :=
  let conditions := timeCondition ::
    filters.filterMap fun filter => filter.2.map (filterCondition filter.1)
  "SELECT " ++ columns ++ " FROM " ++ table ++ " WHERE " ++ " AND ".intercalate conditions ++
    " ORDER BY " ++ orderColumn ++ " DESC LIMIT 100"

namespace ChClient

def getK8sEvents (client : ChClient) (lastMinutes : UInt32) (ns resourceType : Option String) :
    String :=
  eventQuery "event_time, resource_type, name, namespace, event_type, labels, resource_data"
    client.k8sTable ("event_time >= now() - INTERVAL " ++ toString lastMinutes ++ " MINUTE")
    "event_time" [("namespace", ns), ("resource_type", resourceType)]

def getNetworkEvents (client : ChClient) (lastMinutes : UInt32)
    (srcService dstService : Option String) : String :=
  eventQuery ("timestamp_ns, src_service, src_namespace, dst_service, dst_namespace, " ++
      "src_port, dst_port, method, path, host")
    client.ebpfTable
    ("timestamp_ns >= (toUnixTimestamp(now()) - " ++ toString (lastMinutes * 60) ++
      ") * 1000000000")
    "timestamp_ns" [("src_service", srcService), ("dst_service", dstService)]

end ChClient

/-- A value that no lexer could misread. -/
def Harmless (value : String) : Prop :=
  quote ∉ value.toList ∧ backslash ∉ value.toList

/-- The filters that are supplied. -/
def supplied (first second : Option String) : List String :=
  [first, second].filterMap id

/--
The query is read as with any harmless values in the same places, up to the contents of its
literals. With a filter supplied these are the literals of the query without filters and,
behind them, one for each value.
-/
def StaysInLiterals {W : Type} (words : List Char → List W)
    (query : Option String → Option String → String) (first second : Option String) : Prop :=
  (∀ plainFirst plainSecond : Option String, plainFirst.isSome = first.isSome →
    plainSecond.isSome = second.isSome →
    (∀ value ∈ supplied plainFirst plainSecond, Harmless value) →
    (SqlLexer.lex words (query first second).toList).map (List.map Token.blank) =
      (SqlLexer.lex words (query plainFirst plainSecond).toList).map (List.map Token.blank)) ∧
  (supplied first second ≠ [] → ∃ unfiltered tokens,
    SqlLexer.lex words (query none none).toList = some unfiltered ∧
    SqlLexer.lex words (query first second).toList = some tokens ∧
    tokens.filterMap Token.content? = unfiltered.filterMap Token.content? ++
      (supplied first second).map fun value => (sanitize value).toList)

/-! ## The parts of a query -/

theorem quote_notMem_sanitize (value : String) : quote ∉ (sanitize value).toList := by
  simp [sanitize]

theorem Harmless.even_sanitize {value : String} (harmless : Harmless value) :
    Even (trailingBackslashes (sanitize value).toList) := by
  have free : backslash ∉ (sanitize value).toList := by
    simp [sanitize, harmless.2]
  rw [SqlLexer.trailingBackslashes_of_notMem free]
  exact Even.zero

theorem supplied_eq_nil_iff {first second : Option String} :
    supplied first second = [] ↔ first = none ∧ second = none := by
  cases first <;> cases second <;> simp [supplied]

/-- Without a value there is but one query. -/
theorem staysInLiterals_of_unsupplied {W : Type} (words : List Char → List W)
    (query : Option String → Option String → String) : StaysInLiterals words query none none := by
  constructor
  · intro plainFirst plainSecond sameFirst sameSecond _
    rw [Option.isSome_none, Option.isSome_eq_false_iff, Option.isNone_iff_eq_none] at sameFirst
    rw [Option.isSome_none, Option.isSome_eq_false_iff, Option.isNone_iff_eq_none] at sameSecond
    rw [sameFirst, sameSecond]
  · intro supplied_ne
    exact absurd rfl supplied_ne

theorem toList_intercalate_and (first : String) (conditions : List String) :
    (" AND ".intercalate (first :: conditions)).toList =
      first.toList ++ conditions.flatMap fun condition => " AND ".toList ++ condition.toList := by
  induction conditions generalizing first with
  | nil => simp
  | cons condition rest ih =>
      rw [String.intercalate_cons_cons, String.toList_append, String.toList_append, ih]
      simp

/-- The fixed text in front of each supplied value, with the value. -/
def partsOf (filters : List (String × Option String)) : List (List Char × List Char) :=
  filters.filterMap fun filter => filter.2.map fun value =>
    ((" AND " ++ filter.1 ++ " = ").toList, (sanitize value).toList)

theorem partsOf_cons_some (column value : String) (filters : List (String × Option String)) :
    partsOf ((column, some value) :: filters) =
      ((" AND " ++ column ++ " = ").toList, (sanitize value).toList) :: partsOf filters :=
  rfl

theorem flatMap_conditions (filters : List (String × Option String)) :
    ((filters.filterMap fun filter => filter.2.map (filterCondition filter.1)).flatMap
      fun condition => " AND ".toList ++ condition.toList) = SqlLexer.quoted (partsOf filters) := by
  have opening : " = '".toList = " = ".toList ++ [quote] := rfl
  have closing : "'".toList = [quote] := rfl
  induction filters with
  | nil => rfl
  | cons filter rest ih =>
      rcases filter with ⟨column, value⟩
      cases value with
      | none => exact ih
      | some value =>
          rw [partsOf_cons_some, SqlLexer.quoted, List.flatMap_cons, ← SqlLexer.quoted, ← ih]
          simp only [List.filterMap_cons, Option.map_some, List.flatMap_cons, filterCondition,
            String.toList_append, opening, closing, List.append_assoc, List.nil_append,
            List.cons_append]

theorem toList_eventQuery (columns table timeCondition orderColumn : String)
    (filters : List (String × Option String)) :
    (eventQuery columns table timeCondition orderColumn filters).toList =
      ("SELECT " ++ columns ++ " FROM ").toList ++ table.toList ++
        (" WHERE " ++ timeCondition).toList ++
        (SqlLexer.quoted (partsOf filters) ++
          (" ORDER BY " ++ orderColumn ++ " DESC LIMIT 100").toList) := by
  unfold eventQuery
  simp only [String.toList_append, toList_intercalate_and, flatMap_conditions, List.append_assoc]

section

variable {filters : List (String × Option String)}

theorem snd_partsOf : (partsOf filters).map Prod.snd =
    (filters.filterMap Prod.snd).map fun value => (sanitize value).toList := by
  induction filters with
  | nil => rfl
  | cons filter rest ih =>
      rcases filter with ⟨column, value⟩
      cases value with
      | none => exact ih
      | some value => simp [partsOf_cons_some, ih]

theorem forall_partsOf_iff {p : List Char → Prop} :
    (∀ part ∈ partsOf filters, p part.2) ↔
      ∀ value ∈ filters.filterMap Prod.snd, p (sanitize value).toList := by
  have values : (∀ value ∈ (partsOf filters).map Prod.snd, p value) ↔
      ∀ part ∈ partsOf filters, p part.2 := List.forall_mem_map
  rw [← values, snd_partsOf, List.forall_mem_map]

theorem quoteFree_partsOf : ∀ part ∈ partsOf filters, quote ∉ part.2 := by
  rw [forall_partsOf_iff (p := fun value => quote ∉ value)]
  exact fun value _ => quote_notMem_sanitize value

theorem plain_partsOf (plain : ∀ filter ∈ filters, Plain (" AND " ++ filter.1 ++ " = ").toList) :
    ∀ part ∈ partsOf filters, Plain part.1 := by
  intro part partMem
  rcases List.mem_filterMap.mp partMem with ⟨filter, filterMem, part_eq⟩
  rcases Option.map_eq_some_iff.mp part_eq with ⟨value, _, rfl⟩
  exact plain filter filterMem

theorem fst_partsOf_congr {others : List (String × Option String)}
    (sameTexts : filters.map (fun filter => (filter.1, filter.2.isSome)) =
      others.map fun filter => (filter.1, filter.2.isSome)) :
    (partsOf filters).map Prod.fst = (partsOf others).map Prod.fst := by
  have texts (filters : List (String × Option String)) :
      (partsOf filters).map Prod.fst =
        (filters.map fun filter => (filter.1, filter.2.isSome)).filterMap fun filter =>
          if filter.2 then some (" AND " ++ filter.1 ++ " = ").toList else none := by
    rw [partsOf, List.map_filterMap, List.filterMap_map]
    congr 1
    funext ⟨column, value⟩
    cases value <;> simp
  rw [texts, texts, sameTexts]

end

/-! ## Reading a query -/

/-- The fixed texts of a query do not touch the ends of its literals. -/
structure FixedTexts (columns timeCondition orderColumn firstColumn secondColumn : String) :
    Prop where
  columns_free : quote ∉ columns.toList
  plain_time : Plain timeCondition.toList
  plain_first : Plain (" AND " ++ firstColumn ++ " = ").toList
  plain_second : Plain (" AND " ++ secondColumn ++ " = ").toList
  plain_order : Plain (" ORDER BY " ++ orderColumn ++ " DESC LIMIT 100").toList

namespace FixedTexts

variable {columns table timeCondition orderColumn firstColumn secondColumn : String}
  {first second : Option String} {W : Type} (words : List Char → List W)
  (fixed : FixedTexts columns timeCondition orderColumn firstColumn secondColumn)

include fixed

theorem plain_filters : ∀ filter ∈ [(firstColumn, first), (secondColumn, second)],
    Plain (" AND " ++ filter.1 ++ " = ").toList := by
  intro filter filterMem
  rw [List.mem_cons, List.mem_singleton] at filterMem
  rcases filterMem with rfl | rfl
  · exact fixed.plain_first
  · exact fixed.plain_second

theorem quote_notMem_before : quote ∉ ("SELECT " ++ columns ++ " FROM ").toList := by
  have select : quote ∉ "SELECT ".toList := by decide
  have source : quote ∉ " FROM ".toList := by decide
  simp only [String.toList_append, List.mem_append, fixed.columns_free, select, source, or_false,
    not_false_eq_true]

theorem plain_behind : Plain (" WHERE " ++ timeCondition).toList where
  nonempty := by simp
  quoteFree := by
    have condition : quote ∉ " WHERE ".toList := by decide
    simp only [String.toList_append, List.mem_append, fixed.plain_time.quoteFree, condition,
      or_false, not_false_eq_true]
  backslashFree := by
    have condition : backslash ∉ " WHERE ".toList := by decide
    simp only [String.toList_append, List.mem_append, fixed.plain_time.backslashFree, condition,
      or_false, not_false_eq_true]

/-- What stands in front of the values is read in the same way whatever they are. -/
theorem lex_eventQuery (table : String) :
    ∃ (tokens : List (Token W)) (text : List Char), ∀ first second : Option String,
      SqlLexer.lex words (eventQuery columns table timeCondition orderColumn
          [(firstColumn, first), (secondColumn, second)]).toList =
        if (SqlLexer.lex words table.toList).isSome ∧
            ∀ value ∈ supplied first second, Even (trailingBackslashes (sanitize value).toList) then
          some (tokens ++ SqlLexer.intendedTokens words text
            (partsOf [(firstColumn, first), (secondColumn, second)])
            (" ORDER BY " ++ orderColumn ++ " DESC LIMIT 100").toList)
        else none := by
  rcases SqlLexer.lex_quoted words fixed.quote_notMem_before table.toList fixed.plain_behind
    fixed.plain_order with ⟨tokens, text, read⟩
  refine ⟨tokens, text, fun first second => ?_⟩
  have evenParts : (∀ part ∈ partsOf [(firstColumn, first), (secondColumn, second)],
      Even (trailingBackslashes part.2)) ↔
        ∀ value ∈ supplied first second, Even (trailingBackslashes (sanitize value).toList) :=
    forall_partsOf_iff (p := fun value => Even (trailingBackslashes value))
  rw [toList_eventQuery, read _ (plain_partsOf fixed.plain_filters) quoteFree_partsOf]
  simp only [evenParts]

theorem staysInLiterals_iff :
    StaysInLiterals words (fun first second => eventQuery columns table timeCondition orderColumn
        [(firstColumn, first), (secondColumn, second)]) first second ↔
      ∀ value ∈ supplied first second, (SqlLexer.lex words table.toList).isSome ∧
        Even (trailingBackslashes (sanitize value).toList) := by
  rcases fixed.lex_eventQuery words table with ⟨before, text, read⟩
  constructor
  · intro ⟨_, literals⟩ value valueMem
    rcases literals (List.ne_nil_of_mem valueMem) with ⟨_, tokens, _, read_eq, _⟩
    rw [read] at read_eq
    split_ifs at read_eq with condition
    exact ⟨condition.1, condition.2 value valueMem⟩
  · intro condition
    by_cases unsupplied : supplied first second = []
    · rcases supplied_eq_nil_iff.mp unsupplied with ⟨rfl, rfl⟩
      exact staysInLiterals_of_unsupplied words _
    · rcases List.exists_mem_of_ne_nil _ unsupplied with ⟨value, valueMem⟩
      have closed : (SqlLexer.lex words table.toList).isSome := (condition value valueMem).1
      have even : ∀ value ∈ supplied first second,
          Even (trailingBackslashes (sanitize value).toList) :=
        fun value valueMem => (condition value valueMem).2
      refine ⟨?_, fun _ => ?_⟩
      · intro plainFirst plainSecond sameFirst sameSecond harmless
        have plainEven : ∀ value ∈ supplied plainFirst plainSecond,
            Even (trailingBackslashes (sanitize value).toList) :=
          fun value valueMem => (harmless value valueMem).even_sanitize
        have sameTexts : (partsOf [(firstColumn, first), (secondColumn, second)]).map Prod.fst =
            (partsOf [(firstColumn, plainFirst), (secondColumn, plainSecond)]).map Prod.fst :=
          fst_partsOf_congr (by simp [sameFirst, sameSecond])
        rw [read, read, if_pos ⟨closed, even⟩, if_pos ⟨closed, plainEven⟩, Option.map_some,
          Option.map_some, List.map_append, List.map_append,
          SqlLexer.map_blank_intendedTokens sameTexts]
      · have unfiltered := read none none
        rw [if_pos ⟨closed, by simp [supplied]⟩] at unfiltered
        have filtered := read first second
        rw [if_pos ⟨closed, even⟩] at filtered
        refine ⟨_, _, unfiltered, filtered, ?_⟩
        rw [List.filterMap_append, List.filterMap_append,
          SqlLexer.filterMap_content_intendedTokens, SqlLexer.filterMap_content_intendedTokens,
          snd_partsOf, snd_partsOf, List.append_assoc]
        rfl

end FixedTexts

/-! ## The queries of the client -/

theorem isDigit_of_mem_toString {n : UInt32} {char : Char}
    (charMem : char ∈ (toString n).toList) : char.isDigit = true := by
  have digits : (toString n).toList = Nat.toDigits 10 n.toNat := by
    change (toString n.toNat).toList = _
    simp
  rw [digits] at charMem
  exact Nat.isDigit_of_mem_toDigits (by omega) (by omega) charMem

theorem plain_between {before behind : String} (plainBefore : Plain before.toList)
    (plainBehind : Plain behind.toList) {middle : String} (quoteFree : quote ∉ middle.toList)
    (backslashFree : backslash ∉ middle.toList) : Plain (before ++ middle ++ behind).toList where
  nonempty := by simp [plainBehind.nonempty]
  quoteFree := by simp [plainBefore.quoteFree, plainBehind.quoteFree, quoteFree]
  backslashFree := by simp [plainBefore.backslashFree, plainBehind.backslashFree, backslashFree]

theorem plain_toString_between {before behind : String} (plainBefore : Plain before.toList)
    (plainBehind : Plain behind.toList) (n : UInt32) :
    Plain (before ++ toString n ++ behind).toList := by
  apply plain_between plainBefore plainBehind
  · exact fun quoteMem => absurd (isDigit_of_mem_toString quoteMem) (by decide)
  · exact fun backslashMem => absurd (isDigit_of_mem_toString backslashMem) (by decide)

theorem plain_and {column : String} (quoteFree : quote ∉ column.toList)
    (backslashFree : backslash ∉ column.toList) : Plain (" AND " ++ column ++ " = ").toList :=
  plain_between ⟨by decide, by decide, by decide⟩ ⟨by decide, by decide, by decide⟩ quoteFree
    backslashFree

theorem plain_orderBy {column : String} (quoteFree : quote ∉ column.toList)
    (backslashFree : backslash ∉ column.toList) :
    Plain (" ORDER BY " ++ column ++ " DESC LIMIT 100").toList :=
  plain_between ⟨by decide, by decide, by decide⟩ ⟨by decide, by decide, by decide⟩ quoteFree
    backslashFree

namespace ChClient

theorem fixedTexts_getK8sEvents (lastMinutes : UInt32) :
    FixedTexts "event_time, resource_type, name, namespace, event_type, labels, resource_data"
      ("event_time >= now() - INTERVAL " ++ toString lastMinutes ++ " MINUTE") "event_time"
      "namespace" "resource_type" where
  columns_free := by decide
  plain_time := plain_toString_between ⟨by decide, by decide, by decide⟩
    ⟨by decide, by decide, by decide⟩ lastMinutes
  plain_first := plain_and (by decide) (by decide)
  plain_second := plain_and (by decide) (by decide)
  plain_order := plain_orderBy (by decide) (by decide)

theorem fixedTexts_getNetworkEvents (lastMinutes : UInt32) :
    FixedTexts ("timestamp_ns, src_service, src_namespace, dst_service, dst_namespace, " ++
        "src_port, dst_port, method, path, host")
      ("timestamp_ns >= (toUnixTimestamp(now()) - " ++ toString (lastMinutes * 60) ++
        ") * 1000000000") "timestamp_ns" "src_service" "dst_service" where
  columns_free := by
    rw [String.toList_append, List.mem_append, not_or]
    exact ⟨by decide, by decide⟩
  plain_time := plain_toString_between ⟨by decide, by decide, by decide⟩
    ⟨by decide, by decide, by decide⟩ (lastMinutes * 60)
  plain_first := plain_and (by decide) (by decide)
  plain_second := plain_and (by decide) (by decide)
  plain_order := plain_orderBy (by decide) (by decide)

/--
The supplied filters stay in their literals exactly when none ends in an odd number of
backslashes and the configured table in front of them closes its own literals.
-/
theorem staysInLiterals_queries_iff {W : Type} (words : List Char → List W) (client : ChClient)
    (lastMinutes : UInt32) (first second : Option String) :
    (StaysInLiterals words (client.getK8sEvents lastMinutes) first second ↔
      ∀ value ∈ supplied first second, (SqlLexer.lex words client.k8sTable.toList).isSome ∧
        Even (trailingBackslashes (sanitize value).toList)) ∧
    (StaysInLiterals words (client.getNetworkEvents lastMinutes) first second ↔
      ∀ value ∈ supplied first second, (SqlLexer.lex words client.ebpfTable.toList).isSome ∧
        Even (trailingBackslashes (sanitize value).toList)) :=
  ⟨(fixedTexts_getK8sEvents lastMinutes).staysInLiterals_iff words,
    (fixedTexts_getNetworkEvents lastMinutes).staysInLiterals_iff words⟩

/-- The literal of a table on a cluster is left alone. -/
example : StaysInLiterals (fun text => [text])
    (getK8sEvents ⟨"ebpf_network_events", "cluster('prod', default.k8s_resource_events)"⟩ 60)
    (some "default") none := by
  refine ((fixedTexts_getK8sEvents 60).staysInLiterals_iff _).mpr fun value valueMem => ?_
  obtain rfl : value = "default" := List.mem_singleton.mp valueMem
  exact ⟨by decide, by decide⟩

/-- A namespace of one backslash lets the resource type out of its quotes. -/
theorem not_staysInLiterals_backslash :
    ¬StaysInLiterals (fun text => [text])
      (getK8sEvents ⟨"ebpf_network_events", "k8s_resource_events"⟩ 60) (some "\\")
      (some " OR 1=1 -- ") := by
  intro stays
  have even := ((fixedTexts_getK8sEvents 60).staysInLiterals_iff _).mp stays
  exact absurd (even "\\" (by simp [supplied])).2 (by decide)

end ChClient

end Qubit.Mcp
