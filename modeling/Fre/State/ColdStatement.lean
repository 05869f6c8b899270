import Fre.Foundation.Quoting
import Fre.State.ArchivedTotals

/-!
# The text of the cold-tier query

The warm tier is queried through a prepared statement with bound parameters,
the archive through a text into which `query_range` formats the glob and the
three texts of the key as they are, each between single quotes.  The text
means what the prepared statement means exactly when none of them has a single
quote or a NUL.
-/

namespace Fre
namespace State

open Foundation

/-- `glob`. -/
def archiveGlob (archiveDir : String) : String :=
  archiveDir ++ "/epoch=*/part-*.parquet"

/-- The field `'\x7b\x7d'` of a format string. -/
def formatQuoted (text : String) : String := "'" ++ text ++ "'"

/-- `cold_sql`. -/
def coldSql (archiveDir : String) (query : RangeQuery) : String :=
  "SELECT COALESCE(SUM(aggregate), 0.0)" ++
    " FROM read_parquet(" ++ formatQuoted (archiveGlob archiveDir) ++ ")" ++
    " WHERE tenant_id=" ++ formatQuoted query.tenantId ++
    " AND entity_id=" ++ formatQuoted query.entityId ++
    " AND window_name=" ++ formatQuoted query.windowName ++
    "   AND epoch >= " ++ toString query.epochStart.toNat ++
    " AND epoch <= " ++ toString query.epochEnd.toNat

/-- The statement as it is meant: the texts outside of the literals, and
between them the glob, the tenant, the entity and the window. -/
def coldSegments (archiveDir : String) (query : RangeQuery) :
    List (List Char) :=
  ["SELECT COALESCE(SUM(aggregate), 0.0)".toList ++ " FROM read_parquet(".toList,
    (archiveGlob archiveDir).toList,
    ")".toList ++ " WHERE tenant_id=".toList,
    query.tenantId.toList,
    " AND entity_id=".toList,
    query.entityId.toList,
    " AND window_name=".toList,
    query.windowName.toList,
    "   AND epoch >= ".toList ++ Nat.toDigits 10 query.epochStart.toNat ++
      " AND epoch <= ".toList ++ Nat.toDigits 10 query.epochEnd.toNat]

/-- The text that `duckdb_query` gets has the meant literals and nothing else
than the meant text around them, and the warm tier compares with the same
texts. -/
structure ColdStatementFaithful
    (archiveDir : String)
    (query : RangeQuery) : Prop where
  segments : Quoting.split '\x27' (cString (coldSql archiveDir query)).toList =
    some (coldSegments archiveDir query)
  sameKey : query.bound = query

theorem toList_formatQuoted (text : String) :
    (formatQuoted text).toList = '\x27' :: (text.toList ++ ['\x27']) := by
  simp [formatQuoted]

/-- Formatting puts the segments between quotes as they are. -/
theorem toList_coldSql (archiveDir : String) (query : RangeQuery) :
    (coldSql archiveDir query).toList =
      Quoting.join '\x27' (coldSegments archiveDir query) := by
  unfold coldSql coldSegments
  simp only [Quoting.join, String.toList_append, toList_formatQuoted,
    Nat.toString_eq_ofList_toDigits, String.toList_ofList,
    List.append_assoc, List.cons_append, List.nil_append]

theorem coldSegments_separated (archiveDir : String) (query : RangeQuery) :
    Quoting.Separated '\x27' (coldSegments archiveDir query) := by
  have digitsFree (number : Nat) : '\x27' ∉ Nat.toDigits 10 number :=
    Separators.not_mem_toDigits (by decide) number
  simp [coldSegments, Quoting.Separated, digitsFree]

/-- The texts formatted into the statement are plain. -/
def PlainStatement (archiveDir : String) (query : RangeQuery) : Prop :=
  PlainText archiveDir ∧ query.key.PlainTexts

instance (archiveDir : String) (query : RangeQuery) :
    Decidable (PlainStatement archiveDir query) :=
  inferInstanceAs (Decidable (_ ∧ _))

theorem mem_archiveGlob_iff
    {character : Char}
    (notInGlob : character ∉ "/epoch=*/part-*.parquet".toList)
    (archiveDir : String) :
    character ∈ (archiveGlob archiveDir).toList ↔
      character ∈ archiveDir.toList := by
  rw [archiveGlob, String.toList_append, List.mem_append,
    or_iff_left notInGlob]

/-- No literal of the statement has a quote. -/
theorem literals_free_iff (archiveDir : String) (query : RangeQuery) :
    (∀ value ∈ Quoting.literals (coldSegments archiveDir query),
        '\x27' ∉ value) ↔
      '\x27' ∉ archiveDir.toList ∧ '\x27' ∉ query.tenantId.toList ∧
        '\x27' ∉ query.entityId.toList ∧ '\x27' ∉ query.windowName.toList := by
  rw [← mem_archiveGlob_iff (by decide) archiveDir]
  simp [coldSegments, Quoting.literals]

/-- The text of the statement has no NUL. -/
theorem coldSql_noNul_iff (archiveDir : String) (query : RangeQuery) :
    '\x00' ∉ (coldSql archiveDir query).toList ↔
      '\x00' ∉ archiveDir.toList ∧ '\x00' ∉ query.tenantId.toList ∧
        '\x00' ∉ query.entityId.toList ∧ '\x00' ∉ query.windowName.toList := by
  have digitsFree (number : Nat) : '\x00' ∉ Nat.toDigits 10 number :=
    Separators.not_mem_toDigits (by decide) number
  rw [← mem_archiveGlob_iff (by decide) archiveDir, toList_coldSql]
  simp [coldSegments, Quoting.join, digitsFree]

theorem plainStatement_iff (archiveDir : String) (query : RangeQuery) :
    PlainStatement archiveDir query ↔
      (∀ value ∈ Quoting.literals (coldSegments archiveDir query),
        '\x27' ∉ value) ∧
        '\x00' ∉ (coldSql archiveDir query).toList := by
  rw [literals_free_iff, coldSql_noNul_iff]
  constructor
  · rintro ⟨dir, key⟩
    exact ⟨⟨dir.1, key.tenantId.1, key.entityId.1, key.windowName.1⟩,
      dir.2, key.tenantId.2, key.entityId.2, key.windowName.2⟩
  · rintro ⟨⟨dirQuote, tenantQuote, entityQuote, windowQuote⟩,
      dirNul, tenantNul, entityNul, windowNul⟩
    exact ⟨⟨dirQuote, dirNul⟩, ⟨tenantQuote, tenantNul⟩,
      ⟨entityQuote, entityNul⟩, windowQuote, windowNul⟩

theorem length_cString_le (text : String) :
    (cString text).toList.length ≤ text.toList.length := by
  rw [cString, String.toList_ofList]
  exact (List.takeWhile_prefix _).length_le

/-- A text of which the C interface sees the whole length has no NUL. -/
theorem noNul_of_length_cString
    {text : String}
    (whole : (cString text).toList.length = text.toList.length) :
    '\x00' ∉ text.toList := by
  rw [cString, String.toList_ofList] at whole
  have same := (List.takeWhile_prefix (l := text.toList)
    fun character => decide (character ≠ '\x00')).eq_of_length whole
  intro member
  have passes := List.takeWhile_eq_self_iff.mp same _ member
  exact absurd passes (by decide)

/-- A statement that is read as it was meant is plain: the text is no longer
than the formatted one, and each quote of a literal takes two symbols. -/
theorem plainStatement_of_segments
    {archiveDir : String}
    {query : RangeQuery}
    (read : Quoting.split '\x27' (cString (coldSql archiveDir query)).toList =
      some (coldSegments archiveDir query)) :
    PlainStatement archiveDir query := by
  have notLonger := length_cString_le (coldSql archiveDir query)
  rw [toList_coldSql] at notLonger
  obtain ⟨free, sameLength⟩ := Quoting.free_of_split notLonger read
  rw [← toList_coldSql] at sameLength
  rw [plainStatement_iff]
  exact ⟨free, noNul_of_length_cString sameLength⟩

/-- For every archive directory, key and epoch range, the text of the
cold-tier query has exactly the literals of the key and selects what the warm
tier selects, if and only if neither the directory nor a text of the key has a
single quote or a NUL. -/
theorem coldStatement_faithful_iff
    (archiveDir : String)
    (query : RangeQuery) :
    ColdStatementFaithful archiveDir query ↔
      PlainStatement archiveDir query := by
  constructor
  · intro faithful
    exact plainStatement_of_segments faithful.segments
  · intro plain
    obtain ⟨free, noNul⟩ := (plainStatement_iff archiveDir query).mp plain
    refine ⟨?_, RangeQuery.bound_eq plain.2⟩
    rw [cString_eq_self _ noNul, toList_coldSql]
    exact Quoting.split_join (coldSegments_separated archiveDir query) free

/-- A faithful statement sums the archived rows that the condition of the warm
tier selects. -/
theorem coldSum_of_faithful
    {config : DuckDbConfig}
    {faults : Faults}
    {store : TieredStore}
    {query : RangeQuery}
    (database : Database)
    (archives : config.parquetArchiveDir.isEmpty = false)
    (files : store.cold.entries.isEmpty = false)
    (succeeds : faults.executeError 1 = none)
    (faithful : ColdStatementFaithful config.parquetArchiveDir query) :
    store.coldSum database config faults query =
      database.coalesceSum (query.bound.column store.archivedRows) := by
  have plain : PlainText config.parquetArchiveDir ∧ query.key.PlainTexts :=
    plainStatement_of_segments faithful.segments
  rw [faithful.sameKey]
  simp [TieredStore.coldSum, archives, files, succeeds, plain]

/-- A tenant id that closes its literal: the rest of it is read as part of the
statement. -/
theorem coldStatement_injection :
    ¬ColdStatementFaithful "/archive"
      ⟨"' OR 1=1 --", "alice", "logins", 0, 9⟩ := by
  intro faithful
  exact absurd (plainStatement_of_segments faithful.segments) (by decide)

end State
end Fre
