import EvaluationService.Foundation.Run
import EvaluationService.Storage.Factory
import EvaluationService.Storage.Migrations

/-!
Where the schema comes to. A table of the first release, of the present one or of something in
between ends with the same columns and indexes, whoever created it and in whatever order the
service is started and the revisions are run; the rows keep what they hold.
-/

set_option autoImplicit false

namespace EvaluationService

open Foundation

abbrev JobsLayout : Type := Layout ColumnKind Cell

def CreateEvaluationJobs.indexes : List Index := [projectIdIndex, statusIndex, tenantIdIndex]

def AddJobAttemptMetadata.columns : List (Column ColumnKind Cell) :=
  [attemptCount, maxAttempts, claimedAt]

/-- The table of a release, with or without what later releases have added. -/
structure Compatible (layout : JobsLayout) : Prop where
  columns : ∀ column ∈ CreateEvaluationJobs.columns, layout.column? column.name = some column
  attempts : ∀ column ∈ AddJobAttemptMetadata.columns,
    layout.column? column.name = none ∨ layout.column? column.name = some column
  indexes : ∀ index ∈ AddJobAttemptMetadata.claimedAtIndex :: CreateEvaluationJobs.indexes,
    layout.index? index.name = none ∨ layout.index? index.name = some index
  primaryKey : layout.primaryKey = ["job_id"]

structure Complete (layout : JobsLayout) : Prop where
  columns : ∀ column ∈ CreateEvaluationJobs.columns ++ AddJobAttemptMetadata.columns,
    layout.column? column.name = some column
  indexes : ∀ index ∈ AddJobAttemptMetadata.claimedAtIndex :: CreateEvaluationJobs.indexes,
    layout.index? index.name = some index
  primaryKey : layout.primaryKey = ["job_id"]

theorem Complete.compatible {layout : JobsLayout} (complete : Complete layout) :
    Compatible layout where
  columns column member := complete.columns column (List.mem_append_left _ member)
  attempts column member := .inr (complete.columns column (List.mem_append_right _ member))
  indexes index member := .inr (complete.indexes index member)
  primaryKey := complete.primaryKey

/-! ## What the revisions add -/

def CreateEvaluationJobs.upgraded (layout : JobsLayout) : JobsLayout :=
  ((layout.withIndex projectIdIndex).withIndex statusIndex).withIndex tenantIdIndex

def AddJobAttemptMetadata.upgraded (layout : JobsLayout) : JobsLayout :=
  (((layout.fillColumn attemptCount (some (.integer 0))).fillColumn maxAttempts
    (some (.integer 3))).fillColumn claimedAt none).withIndex claimedAtIndex

section Statements

variable {table : JobsTable} {index : Index} {column : Column ColumnKind Cell}

theorem createMissingIndex_ok {existing : List String}
    (listed : index.name ∈ existing ↔ (table.layout.index? index.name).isSome)
    (known : table.layout.index? index.name = none ∨ table.layout.index? index.name = some index)
    (columns : ∀ name ∈ index.columns, ∃ column, table.layout.column? name = some column) :
    ∃ next, createMissingIndex existing index table = .ok next ∧
      next.layout = table.layout.withIndex index := by
  unfold createMissingIndex
  rcases known with absent | present
  · rw [absent] at listed
    rw [if_neg fun isListed => Bool.false_ne_true (listed.mp isListed)]
    exact Relation.createIndex_ok absent columns
  · rw [present] at listed
    rw [if_pos (listed.mpr rfl)]
    exact ⟨table, rfl, (Layout.withIndex_of_present present).symm⟩

theorem addMissingColumn_ok {existing : List String} (nullable : column.nullable = true)
    (noDefault : column.default = none)
    (listed : column.name ∈ existing ↔ (table.layout.column? column.name).isSome) :
    ∃ next, addMissingColumn existing column table = .ok next ∧
      next.layout = table.layout.fillColumn column none := by
  unfold addMissingColumn
  cases found : table.layout.column? column.name with
  | none =>
      rw [found] at listed
      rw [if_neg fun isListed => Bool.false_ne_true (listed.mp isListed),
        Layout.fillColumn_of_absent found, ← noDefault]
      exact Relation.addColumn_ok found (.inl nullable)
  | some column =>
      rw [found] at listed
      rw [if_pos (listed.mpr rfl)]
      exact ⟨table, rfl, (Layout.fillColumn_of_present found).symm⟩

theorem addFilledColumn_ok {existing : List String} {value : Cell} (noDefault : column.default = none)
    (listed : column.name ∈ existing ↔ (table.layout.column? column.name).isSome) :
    ∃ next, addFilledColumn existing column value table = .ok next ∧
      next.layout = table.layout.fillColumn column (some value) := by
  unfold addFilledColumn
  cases found : table.layout.column? column.name with
  | none =>
      rw [found] at listed
      rw [if_neg fun isListed => Bool.false_ne_true (listed.mp isListed)]
      let filled : Column ColumnKind Cell := { column with default := some value }
      obtain ⟨added, adds, addedLayout⟩ :=
        @Relation.addColumn_ok _ _ table filled found (.inr rfl)
      have isAdded : added.layout.column? column.name = some filled := by
        rw [addedLayout]
        exact Function.update_self _ _ _
      obtain ⟨next, drops, nextLayout⟩ := Relation.dropDefault_ok isAdded
      refine ⟨next, ?_, ?_⟩
      · rw [adds]
        exact drops
      · rw [nextLayout, addedLayout, Layout.fillColumn_of_absent found]
        unfold Layout.withColumn
        dsimp only
        rw [Function.update_idem, ← noDefault]
  | some column =>
      rw [found] at listed
      rw [if_pos (listed.mpr rfl)]
      exact ⟨table, rfl, (Layout.fillColumn_of_present found).symm⟩

end Statements

namespace CreateEvaluationJobs

theorem exists_column {layout : JobsLayout} {names : List String}
    (present : ∀ column ∈ columns, layout.column? column.name = some column)
    (known : ∀ name ∈ names, name ∈ columns.map Column.name) :
    ∀ name ∈ names, ∃ column, layout.column? name = some column := by
  intro name member
  obtain ⟨column, isColumn, rfl⟩ := List.mem_map.mp (known name member)
  exact ⟨column, present column isColumn⟩

theorem upgrade_ok {table : JobsTable} (compatible : Compatible table.layout) :
    ∃ next, upgrade (some table) = .ok (some next) ∧ next.layout = upgraded table.layout := by
  have indexed : ∀ index ∈ indexes,
      table.layout.index? index.name = none ∨ table.layout.index? index.name = some index :=
    fun index member => compatible.indexes index (List.mem_cons_of_mem _ member)
  obtain ⟨first, creates, firstLayout⟩ := createMissingIndex_ok Relation.mem_index_names_iff
    (indexed projectIdIndex (by decide)) (exists_column compatible.columns (by decide))
  have statusSame : first.layout.index? statusIndex.name = table.layout.index? statusIndex.name := by
    rw [firstLayout]
    exact Layout.withIndex_index?_of_ne (by decide)
  obtain ⟨second, createsSecond, secondLayout⟩ :=
    @createMissingIndex_ok first statusIndex (table.indexes.map Index.name)
      (by rw [statusSame]; exact Relation.mem_index_names_iff)
      (by rw [statusSame]; exact indexed statusIndex (by decide))
      (by rw [firstLayout]; exact exists_column compatible.columns (by decide))
  have tenantSame : second.layout.index? tenantIdIndex.name =
      table.layout.index? tenantIdIndex.name := by
    rw [secondLayout, firstLayout]
    exact (Layout.withIndex_index?_of_ne (by decide)).trans
      (Layout.withIndex_index?_of_ne (by decide))
  obtain ⟨third, createsThird, thirdLayout⟩ :=
    @createMissingIndex_ok second tenantIdIndex (table.indexes.map Index.name)
      (by rw [tenantSame]; exact Relation.mem_index_names_iff)
      (by rw [tenantSame]; exact indexed tenantIdIndex (by decide))
      (by rw [secondLayout, firstLayout]; exact exists_column compatible.columns (by decide))
  refine ⟨third, ?_, ?_⟩
  · simp only [upgrade, Option.getD_some, creates, createsSecond, createsThird, bind, Except.bind]
  · rw [thirdLayout, secondLayout, firstLayout, upgraded]

/-- The revision asks for nothing that a compatible table does not have afterwards. -/
theorem upgraded_compatible {layout : JobsLayout} (compatible : Compatible layout) :
    Compatible (upgraded layout) ∧
      ∀ index ∈ indexes, (upgraded layout).index? index.name = some index := by
  have base : ∀ index ∈ indexes, (upgraded layout).index? index.name = some index := by
    intro index member
    simp only [indexes, List.mem_cons, List.not_mem_nil, or_false] at member
    rcases member with rfl | rfl | rfl
    · rw [upgraded, Layout.withIndex_index?_of_ne (by decide),
        Layout.withIndex_index?_of_ne (by decide)]
      exact Layout.withIndex_index?_self
    · rw [upgraded, Layout.withIndex_index?_of_ne (by decide)]
      exact Layout.withIndex_index?_self
    · exact Layout.withIndex_index?_self
  refine ⟨⟨compatible.columns, compatible.attempts, ?_, compatible.primaryKey⟩, base⟩
  intro index member
  rcases List.mem_cons.mp member with rfl | inBase
  · rw [upgraded, Layout.withIndex_index?_of_ne (by decide),
      Layout.withIndex_index?_of_ne (by decide), Layout.withIndex_index?_of_ne (by decide)]
    exact compatible.indexes _ member
  · exact .inr (base index inBase)

end CreateEvaluationJobs

namespace AddJobAttemptMetadata

theorem upgrade_ok {table : JobsTable} (compatible : Compatible table.layout) :
    ∃ next, upgrade (some table) = .ok (some next) ∧ next.layout = upgraded table.layout := by
  obtain ⟨first, adds, firstLayout⟩ := @addFilledColumn_ok table attemptCount
    (table.columns.map Column.name) (.integer 0) rfl Relation.mem_column_names_iff
  have budgetSame : first.layout.column? maxAttempts.name =
      table.layout.column? maxAttempts.name := by
    rw [firstLayout]
    exact Layout.fillColumn_column?_of_ne (by decide)
  obtain ⟨second, addsSecond, secondLayout⟩ := @addFilledColumn_ok first maxAttempts
    (table.columns.map Column.name) (.integer 3) rfl
    (by rw [budgetSame]; exact Relation.mem_column_names_iff)
  have claimSame : second.layout.column? claimedAt.name = table.layout.column? claimedAt.name := by
    rw [secondLayout, firstLayout]
    exact (Layout.fillColumn_column?_of_ne (by decide)).trans
      (Layout.fillColumn_column?_of_ne (by decide))
  obtain ⟨third, addsThird, thirdLayout⟩ := @addMissingColumn_ok second claimedAt
    (table.columns.map Column.name) rfl rfl
    (by rw [claimSame]; exact Relation.mem_column_names_iff)
  have indexSame : third.layout.index? = table.layout.index? := by
    rw [thirdLayout, secondLayout, firstLayout]
    simp only [Layout.fillColumn_index?]
  have claimed : third.layout.column? claimedAt.name = some claimedAt := by
    rw [thirdLayout]
    refine Layout.fillColumn_column?_self ?_
    rw [claimSame]
    exact compatible.attempts claimedAt (by decide)
  obtain ⟨last, creates, lastLayout⟩ :=
    @createMissingIndex_ok third claimedAtIndex (third.indexes.map Index.name)
      Relation.mem_index_names_iff
      (by rw [indexSame]; exact compatible.indexes claimedAtIndex (by decide))
      (by
        intro name member
        rw [List.mem_singleton.mp member]
        exact ⟨claimedAt, claimed⟩)
  refine ⟨last, ?_, ?_⟩
  · simp only [upgrade, onTable, adds, addsSecond, addsThird, creates, bind, Except.bind]
  · rw [lastLayout, thirdLayout, secondLayout, firstLayout, upgraded]

end AddJobAttemptMetadata

/-! ## Upgrading a database -/

/-- The table of a database that all revisions have been applied to. -/
def headLayout (layout : JobsLayout) : JobsLayout :=
  AddJobAttemptMetadata.upgraded (CreateEvaluationJobs.upgraded layout)

section Layouts

variable {layout other : JobsLayout}

theorem AddJobAttemptMetadata.upgraded_complete (compatible : Compatible layout)
    (present : ∀ index ∈ CreateEvaluationJobs.indexes, layout.index? index.name = some index) :
    Complete (upgraded layout) := by
  constructor
  · intro column member
    rcases List.mem_append.mp member with base | added
    · have different : ∀ new ∈ columns, column.name ≠ new.name := by
        have all : ∀ old ∈ CreateEvaluationJobs.columns, ∀ new ∈ columns, old.name ≠ new.name := by
          decide
        exact all column base
      rw [upgraded, Layout.withIndex_column?,
        Layout.fillColumn_column?_of_ne (different claimedAt (by decide)),
        Layout.fillColumn_column?_of_ne (different maxAttempts (by decide)),
        Layout.fillColumn_column?_of_ne (different attemptCount (by decide))]
      exact compatible.columns column base
    · rw [upgraded, Layout.withIndex_column?]
      have known := compatible.attempts column added
      simp only [columns, List.mem_cons, List.not_mem_nil, or_false] at added
      rcases added with rfl | rfl | rfl
      · rw [Layout.fillColumn_column?_of_ne (by decide), Layout.fillColumn_column?_of_ne (by decide)]
        exact Layout.fillColumn_column?_self known
      · rw [Layout.fillColumn_column?_of_ne (by decide)]
        refine Layout.fillColumn_column?_self ?_
        rw [Layout.fillColumn_column?_of_ne (by decide)]
        exact known
      · refine Layout.fillColumn_column?_self ?_
        rw [Layout.fillColumn_column?_of_ne (by decide), Layout.fillColumn_column?_of_ne (by decide)]
        exact known
  · intro index member
    rcases List.mem_cons.mp member with rfl | base
    · exact Layout.withIndex_index?_self
    · have different : index.name ≠ claimedAtIndex.name := by
        have all : ∀ old ∈ CreateEvaluationJobs.indexes, old.name ≠ claimedAtIndex.name := by decide
        exact all index base
      rw [upgraded, Layout.withIndex_index?_of_ne different]
      simp only [Layout.fillColumn_index?]
      exact present index base
  · simpa [upgraded] using compatible.primaryKey

theorem headLayout_complete (compatible : Compatible layout) : Complete (headLayout layout) := by
  obtain ⟨kept, present⟩ := CreateEvaluationJobs.upgraded_compatible compatible
  exact AddJobAttemptMetadata.upgraded_complete kept present

/-- Where nothing is missing nothing is done. -/
theorem CreateEvaluationJobs.upgraded_of_present
    (present : ∀ index ∈ indexes, layout.index? index.name = some index) :
    upgraded layout = layout := by
  rw [upgraded, Layout.withIndex_of_present (present projectIdIndex (by decide)),
    Layout.withIndex_of_present (present statusIndex (by decide)),
    Layout.withIndex_of_present (present tenantIdIndex (by decide))]

theorem headLayout_of_complete (complete : Complete layout) : headLayout layout = layout := by
  have column : ∀ column ∈ AddJobAttemptMetadata.columns,
      layout.column? column.name = some column :=
    fun column member => complete.columns column (List.mem_append_right _ member)
  rw [headLayout, CreateEvaluationJobs.upgraded_of_present fun index member =>
      complete.indexes index (List.mem_cons_of_mem _ member),
    AddJobAttemptMetadata.upgraded, Layout.fillColumn_of_present (column _ (by decide)),
    Layout.fillColumn_of_present (column _ (by decide)),
    Layout.fillColumn_of_present (column _ (by decide)),
    Layout.withIndex_of_present (complete.indexes _ (by decide))]

/-- The complete table and nothing else. -/
structure Exact (layout : JobsLayout) : Prop extends Complete layout where
  noColumn : ∀ name,
    name ∉ (CreateEvaluationJobs.columns ++ AddJobAttemptMetadata.columns).map Column.name →
    layout.column? name = none
  noIndex : ∀ name,
    name ∉ (AddJobAttemptMetadata.claimedAtIndex :: CreateEvaluationJobs.indexes).map Index.name →
    layout.index? name = none

theorem Exact.unique (exact : Exact layout) (otherExact : Exact other)
    (rows : layout.rows = other.rows) : layout = other := by
  have columns : layout.column? = other.column? := by
    funext name
    by_cases known : name ∈
        (CreateEvaluationJobs.columns ++ AddJobAttemptMetadata.columns).map Column.name
    · obtain ⟨column, member, rfl⟩ := List.mem_map.mp known
      exact (exact.columns column member).trans (otherExact.columns column member).symm
    · exact (exact.noColumn name known).trans (otherExact.noColumn name known).symm
  have indexes : layout.index? = other.index? := by
    funext name
    by_cases known : name ∈
        (AddJobAttemptMetadata.claimedAtIndex :: CreateEvaluationJobs.indexes).map Index.name
    · obtain ⟨index, member, rfl⟩ := List.mem_map.mp known
      exact (exact.indexes index member).trans (otherExact.indexes index member).symm
    · exact (exact.noIndex name known).trans (otherExact.noIndex name known).symm
  have keys := exact.primaryKey.trans otherExact.primaryKey.symm
  cases layout
  cases other
  cases columns
  cases indexes
  cases keys
  cases rows
  rfl

theorem headLayout_exact {table : JobsTable} (compatible : Compatible table.layout)
    (columns : ∀ name ∈ table.columns.map Column.name,
      name ∈ (CreateEvaluationJobs.columns ++ AddJobAttemptMetadata.columns).map Column.name)
    (indexes : ∀ name ∈ table.indexes.map Index.name,
      name ∈ (AddJobAttemptMetadata.claimedAtIndex :: CreateEvaluationJobs.indexes).map Index.name) :
    Exact (headLayout table.layout) where
  toComplete := headLayout_complete compatible
  noColumn := by
    intro name unknown
    have different : ∀ column ∈ AddJobAttemptMetadata.columns, name ≠ column.name := by
      intro column member same
      rw [same] at unknown
      exact unknown (List.mem_map_of_mem (List.mem_append_right _ member))
    rw [headLayout, AddJobAttemptMetadata.upgraded, Layout.withIndex_column?,
      Layout.fillColumn_column?_of_ne (different _ (by decide)),
      Layout.fillColumn_column?_of_ne (different _ (by decide)),
      Layout.fillColumn_column?_of_ne (different _ (by decide)), CreateEvaluationJobs.upgraded]
    exact Relation.layout_column?_eq_none_iff.mpr fun member => unknown (columns name member)
  noIndex := by
    intro name unknown
    have different : ∀ index ∈ AddJobAttemptMetadata.claimedAtIndex :: CreateEvaluationJobs.indexes,
        name ≠ index.name := by
      intro index member same
      rw [same] at unknown
      exact unknown (List.mem_map_of_mem member)
    rw [headLayout, AddJobAttemptMetadata.upgraded,
      Layout.withIndex_index?_of_ne (different _ (by decide))]
    simp only [Layout.fillColumn_index?]
    rw [CreateEvaluationJobs.upgraded, Layout.withIndex_index?_of_ne (different _ (by decide)),
      Layout.withIndex_index?_of_ne (different _ (by decide)),
      Layout.withIndex_index?_of_ne (different _ (by decide))]
    exact Relation.layout_index?_eq_none_iff.mpr fun member => unknown (indexes name member)

theorem headLayout_rows_of_empty (empty : layout.rows = []) : (headLayout layout).rows = [] := by
  rw [headLayout, AddJobAttemptMetadata.upgraded, Layout.withIndex_rows, Layout.fillColumn_rows,
    Layout.fillColumn_rows, Layout.fillColumn_rows, CreateEvaluationJobs.upgraded,
    Layout.withIndex_rows, Layout.withIndex_rows, Layout.withIndex_rows, empty]
  rfl

theorem compatible_table : Compatible CreateEvaluationJobs.table.layout where
  columns := by decide
  attempts := by decide
  indexes := by decide
  primaryKey := rfl

theorem compatible_metadata : Compatible EvaluationJobRow.metadata.layout where
  columns := by decide
  attempts := by decide
  indexes := by decide
  primaryKey := rfl

/-- It makes no difference which of the two creates the table. -/
theorem headLayout_table :
    headLayout CreateEvaluationJobs.table.layout = headLayout EvaluationJobRow.metadata.layout := by
  refine (headLayout_exact compatible_table (by decide) (by decide)).unique
    (headLayout_exact compatible_metadata (by decide) (by decide)) ?_
  rw [headLayout_rows_of_empty rfl, headLayout_rows_of_empty rfl]

end Layouts

/-! ## Whole runs -/

/-- The databases that a release leaves. -/
inductive Database.Supported : Database → Prop where
  | fresh : Supported ⟨none, none⟩
  | unversioned {table : JobsTable} : Compatible table.layout → Supported ⟨none, some table⟩
  | created {table : JobsTable} : Compatible table.layout →
      (∀ index ∈ CreateEvaluationJobs.indexes, table.layout.index? index.name = some index) →
      Supported ⟨some .createEvaluationJobs, some table⟩
  | head {table : JobsTable} : Complete table.layout →
      Supported ⟨some .addJobAttemptMetadata, some table⟩

/-- Where the table of a database comes to. -/
def Database.goal (database : Database) : JobsLayout :=
  headLayout (database.table.getD EvaluationJobRow.metadata).layout

/-- At the last revision, with the table that it asks for. -/
structure Database.Upgraded (database : Database) (layout : JobsLayout) : Prop where
  version : database.version = some .addJobAttemptMetadata
  table : ∃ table, database.table = some table ∧ table.layout = layout
  complete : Complete layout

theorem Database.Supported.upgradeHead_ok {database : Database} (supported : database.Supported) :
    ∃ next, database.upgradeHead = .ok next ∧ next.Upgraded database.goal := by
  cases supported with
  | fresh =>
      obtain ⟨first, creates, firstLayout⟩ := CreateEvaluationJobs.upgrade_ok compatible_table
      obtain ⟨kept, present⟩ := CreateEvaluationJobs.upgraded_compatible compatible_table
      rw [← firstLayout] at kept
      obtain ⟨second, adds, secondLayout⟩ := AddJobAttemptMetadata.upgrade_ok kept
      have created : CreateEvaluationJobs.upgrade none = .ok (some first) := creates
      refine ⟨⟨some .addJobAttemptMetadata, some second⟩, ?_, rfl, ⟨second, rfl, ?_⟩,
        headLayout_complete compatible_metadata⟩
      · simp only [upgradeHead, Revision.pending, List.foldlM_cons, List.foldlM_nil, apply,
          Revision.upgrade, created, adds, Except.map, bind, Except.bind, pure, Except.pure]
      · rw [secondLayout, firstLayout]
        exact headLayout_table
  | @unversioned table compatible =>
      obtain ⟨first, creates, firstLayout⟩ := CreateEvaluationJobs.upgrade_ok compatible
      obtain ⟨kept, present⟩ := CreateEvaluationJobs.upgraded_compatible compatible
      rw [← firstLayout] at kept
      obtain ⟨second, adds, secondLayout⟩ := AddJobAttemptMetadata.upgrade_ok kept
      refine ⟨⟨some .addJobAttemptMetadata, some second⟩, ?_, rfl, ⟨second, rfl, ?_⟩,
        headLayout_complete compatible⟩
      · simp only [upgradeHead, Revision.pending, List.foldlM_cons, List.foldlM_nil, apply,
          Revision.upgrade, creates, adds, Except.map, bind, Except.bind, pure, Except.pure]
      · rw [secondLayout, firstLayout]
        rfl
  | @created table compatible present =>
      obtain ⟨next, adds, nextLayout⟩ := AddJobAttemptMetadata.upgrade_ok compatible
      refine ⟨⟨some .addJobAttemptMetadata, some next⟩, ?_, rfl, ⟨next, rfl, ?_⟩,
        headLayout_complete compatible⟩
      · simp only [upgradeHead, Revision.pending, List.foldlM_cons, List.foldlM_nil, apply,
          Revision.upgrade, adds, Except.map, bind, Except.bind, pure, Except.pure]
      · change next.layout = headLayout table.layout
        rw [nextLayout, headLayout, CreateEvaluationJobs.upgraded_of_present present]
  | @head table complete =>
      exact ⟨_, rfl, rfl, ⟨table, rfl, (headLayout_of_complete complete).symm⟩,
        headLayout_complete complete.compatible⟩

inductive SchemaEvent where
  | initSchema
  | upgradeHead
  | write
deriving DecidableEq, Repr

/-- The service starts, the revisions are run, or the service changes rows. -/
inductive SchemaStep (database : Database) : SchemaEvent → Database → Prop where
  | initSchema : SchemaStep database .initSchema database.initSchema
  | upgradeHead {next : Database} : database.upgradeHead = .ok next →
      SchemaStep database .upgradeHead next
  | write {table next : JobsTable} : database.table = some table →
      next.columns = table.columns → next.indexes = table.indexes →
      next.primaryKey = table.primaryKey →
      SchemaStep database .write { database with table := some next }

abbrev SchemaTrace : Type := List (Transition Database SchemaEvent)

/-- What the order of the steps cannot change. -/
structure SchemaConverges (start final : Database) (trace : SchemaTrace) : Prop where
  /-- The revisions are never refused. -/
  accepted : ∃ next, final.upgradeHead = .ok next ∧ next.Upgraded final.goal
  /-- Once they have run there is nothing left to do. -/
  upgraded : (∃ taken ∈ trace, taken.event = .upgradeHead) → final.Upgraded final.goal
  /-- The table comes to the same columns, indexes and key from wherever the run has come. -/
  schema : final.goal.column? = start.goal.column? ∧ final.goal.index? = start.goal.index? ∧
    final.goal.primaryKey = start.goal.primaryKey
  /-- Only the service changes the rows that it comes to. -/
  rows : (∀ taken ∈ trace, taken.event ≠ .write) → final.goal = start.goal

structure SameSchema (layout other : JobsLayout) : Prop where
  column? : layout.column? = other.column?
  index? : layout.index? = other.index?
  primaryKey : layout.primaryKey = other.primaryKey

namespace SameSchema

variable {layout middle other : JobsLayout}

theorem trans (first : SameSchema layout middle) (last : SameSchema middle other) :
    SameSchema layout other :=
  ⟨first.column?.trans last.column?, first.index?.trans last.index?,
    first.primaryKey.trans last.primaryKey⟩

theorem withIndex (same : SameSchema layout other) (index : Index) :
    SameSchema (layout.withIndex index) (other.withIndex index) := by
  refine ⟨same.column?, ?_, same.primaryKey⟩
  unfold Layout.withIndex
  rw [same.index?]

theorem fillColumn (same : SameSchema layout other) (column : Column ColumnKind Cell)
    (value : Option Cell) : SameSchema (layout.fillColumn column value) (other.fillColumn column value) := by
  unfold Layout.fillColumn
  rw [same.column?]
  split
  · exact same
  · refine ⟨?_, same.index?, same.primaryKey⟩
    unfold Layout.withColumn
    rw [same.column?]

theorem headLayout (same : SameSchema layout other) :
    SameSchema (headLayout layout) (EvaluationService.headLayout other) :=
  ((((((same.withIndex _).withIndex _).withIndex _).fillColumn _ _).fillColumn _ _).fillColumn
    _ _).withIndex _

theorem compatible (same : SameSchema layout other) (compatible : Compatible other) :
    Compatible layout where
  columns := same.column? ▸ compatible.columns
  attempts := same.column? ▸ compatible.attempts
  indexes := same.index? ▸ compatible.indexes
  primaryKey := same.primaryKey.trans compatible.primaryKey

theorem complete (same : SameSchema layout other) (complete : Complete other) :
    Complete layout where
  columns := same.column? ▸ complete.columns
  indexes := same.index? ▸ complete.indexes
  primaryKey := same.primaryKey.trans complete.primaryKey

theorem of_tables {table next : JobsTable} (columns : next.columns = table.columns)
    (indexes : next.indexes = table.indexes) (key : next.primaryKey = table.primaryKey) :
    SameSchema next.layout table.layout := by
  refine ⟨?_, ?_, key⟩
  · unfold Relation.layout
    rw [columns]
  · unfold Relation.layout
    rw [indexes]

end SameSchema

namespace Database

variable {start database next final : Database} {event : SchemaEvent} {trace : SchemaTrace}

theorem Upgraded.supported {layout : JobsLayout} (upgraded : next.Upgraded layout) :
    next.Supported := by
  obtain ⟨version, table⟩ := next
  obtain ⟨rfl, ⟨table, rfl, rfl⟩, complete⟩ := upgraded
  exact .head complete

theorem Upgraded.goal_eq {layout : JobsLayout} (upgraded : next.Upgraded layout) :
    next.goal = layout := by
  obtain ⟨version, table⟩ := next
  obtain ⟨rfl, ⟨table, rfl, rfl⟩, complete⟩ := upgraded
  exact headLayout_of_complete complete

theorem Supported.initSchema (supported : database.Supported) :
    database.initSchema.Supported := by
  cases supported with
  | fresh => exact .unversioned compatible_metadata
  | unversioned compatible => exact .unversioned compatible
  | created compatible present => exact .created compatible present
  | head complete => exact .head complete

theorem Supported.write {table changed : JobsTable} (supported : database.Supported)
    (stored : database.table = some table) (same : SameSchema changed.layout table.layout) :
    Supported { database with table := some changed } := by
  cases supported with
  | fresh => cases stored
  | unversioned compatible =>
      cases stored
      exact .unversioned (same.compatible compatible)
  | created compatible present =>
      cases stored
      exact .created (same.compatible compatible) (same.index? ▸ present)
  | head complete =>
      cases stored
      exact .head (same.complete complete)

theorem Supported.step (supported : database.Supported) (stepped : SchemaStep database event next) :
    next.Supported ∧ SameSchema next.goal database.goal ∧
      (event ≠ .write → next.goal = database.goal) ∧
      (event = .upgradeHead ∨ database.Upgraded database.goal → next.Upgraded next.goal) := by
  cases stepped with
  | initSchema =>
      refine ⟨supported.initSchema, ⟨rfl, rfl, rfl⟩, fun _ => rfl, ?_⟩
      intro upgraded
      rcases upgraded with isUpgrade | upgraded
      · cases isUpgrade
      · obtain ⟨version, ⟨table, stored, layout⟩, complete⟩ := upgraded
        refine ⟨version, ⟨table, ?_, layout⟩, complete⟩
        rw [Database.initSchema, stored]
        rfl
  | upgradeHead upgrades =>
      obtain ⟨given, isGiven, upgraded⟩ := supported.upgradeHead_ok
      rw [upgrades] at isGiven
      cases isGiven
      have same := upgraded.goal_eq
      refine ⟨upgraded.supported, ?_, fun _ => same, fun _ => ?_⟩
      · rw [same]
        exact ⟨rfl, rfl, rfl⟩
      · rw [same]
        exact upgraded
  | @write table changed stored columns indexes key =>
      have same : SameSchema changed.layout table.layout := .of_tables columns indexes key
      have goals : SameSchema (goal { database with table := some changed }) database.goal := by
        rw [goal, goal, stored]
        exact same.headLayout
      refine ⟨supported.write stored same, goals, fun notWrite => absurd rfl notWrite, ?_⟩
      intro upgraded
      rcases upgraded with isUpgrade | upgraded
      · cases isUpgrade
      · obtain ⟨version, ⟨given, isGiven, layout⟩, complete⟩ := upgraded
        rw [stored] at isGiven
        cases isGiven
        have changedComplete : Complete changed.layout := same.complete (layout ▸ complete)
        have goalEq : goal { database with table := some changed } = changed.layout :=
          headLayout_of_complete changedComplete
        rw [goalEq]
        exact ⟨version, ⟨changed, rfl, rfl⟩, changedComplete⟩

/-- Whatever a release has left, the schema comes to that of the present one. -/
theorem schema_converges (supported : start.Supported) (run : Run SchemaStep start trace final) :
    SchemaConverges start final trace := by
  have kept : final.Supported ∧ SameSchema final.goal start.goal ∧
      ((∀ taken ∈ trace, taken.event ≠ .write) → final.goal = start.goal) ∧
      ((∃ taken ∈ trace, taken.event = .upgradeHead) → final.Upgraded final.goal) := by
    induction run with
    | nil =>
        refine ⟨supported, ⟨rfl, rfl, rfl⟩, fun _ => rfl, ?_⟩
        intro ⟨taken, member, _⟩
        cases member
    | @snoc earlier middle last event prior stepped ih =>
        obtain ⟨middleSupported, same, unwritten, upgraded⟩ := ih
        obtain ⟨lastSupported, lastSame, lastUnwritten, lastUpgraded⟩ := middleSupported.step stepped
        refine ⟨lastSupported, lastSame.trans same, ?_, ?_⟩
        · intro noWrite
          refine (lastUnwritten (noWrite ⟨middle, event, last⟩ (by simp))).trans (unwritten ?_)
          exact fun taken member => noWrite taken (List.mem_append_left _ member)
        · intro ⟨taken, member, isUpgrade⟩
          rcases List.mem_append.mp member with before | now
          · exact lastUpgraded (.inr (upgraded ⟨taken, before, isUpgrade⟩))
          · obtain rfl := List.mem_singleton.mp now
            exact lastUpgraded (.inl isUpgrade)
  obtain ⟨finalSupported, same, unwritten, upgraded⟩ := kept
  exact ⟨finalSupported.upgradeHead_ok, upgraded, ⟨same.column?, same.index?, same.primaryKey⟩,
    unwritten⟩

/-- The service may be started before the revisions are run for the first time. -/
theorem schema_converges_started : ∃ trace final, Run SchemaStep ⟨none, none⟩ trace final ∧
    final.version = some .addJobAttemptMetadata ∧
    final.goal = goal ⟨none, none⟩ ∧ Complete final.goal := by
  obtain ⟨next, upgrades, _⟩ :=
    (Supported.initSchema .fresh : (initSchema ⟨none, none⟩).Supported).upgradeHead_ok
  have run : Run SchemaStep ⟨none, none⟩
      ([⟨_, .initSchema, initSchema ⟨none, none⟩⟩] ++ [⟨_, .upgradeHead, next⟩]) next :=
    (Run.single .initSchema).append (.single (.upgradeHead upgrades))
  have converges := schema_converges .fresh run
  have upgraded := converges.upgraded
    ⟨_, List.mem_append_right _ (List.mem_singleton_self _), rfl⟩
  refine ⟨_, next, run, upgraded.version, converges.rows ?_, upgraded.complete⟩
  intro taken member
  simp only [List.cons_append, List.nil_append, List.mem_cons, List.not_mem_nil, or_false] at member
  rcases member with rfl | rfl
  · exact nofun
  · exact nofun

end Database

/-! ## Downgrading -/

section Downgrade

variable {table : JobsTable}

theorem AddJobAttemptMetadata.upgraded_of_absent {layout : JobsLayout}
    (absent : ∀ column ∈ columns, layout.column? column.name = none) :
    upgraded layout = (((layout.withColumn attemptCount (some (.integer 0))).withColumn maxAttempts
      (some (.integer 3))).withColumn claimedAt none).withIndex claimedAtIndex := by
  have budgetAbsent : (layout.withColumn attemptCount (some (.integer 0))).column? maxAttempts.name =
      none :=
    (Layout.withColumn_column?_of_ne (by decide)).trans (absent maxAttempts (by decide))
  have claimAbsent : ((layout.withColumn attemptCount (some (.integer 0))).withColumn maxAttempts
      (some (.integer 3))).column? claimedAt.name = none :=
    (Layout.withColumn_column?_of_ne (by decide)).trans
      ((Layout.withColumn_column?_of_ne (by decide)).trans (absent claimedAt (by decide)))
  rw [upgraded, Layout.fillColumn_of_absent (absent attemptCount (by decide)),
    Layout.fillColumn_of_absent budgetAbsent, Layout.fillColumn_of_absent claimAbsent]

/-- The columns are dropped in the opposite order, and each leaves nothing behind. -/
theorem AddJobAttemptMetadata.downgrade_ok {base : JobsTable} (compatible : Compatible base.layout)
    (absent : ∀ column ∈ columns, base.layout.column? column.name = none)
    (noIndex : base.layout.index? claimedAtIndex.name = none)
    (layout : table.layout = upgraded base.layout) :
    ∃ next, downgrade (some table) = .ok (some next) ∧ next.layout = base.layout := by
  have free : ∀ column ∈ columns, base.layout.Free column.name := by
    intro column member
    refine Relation.free_of_absent (absent column member) ?_
    have apart : ∀ column ∈ columns, column.name ∉ ["job_id"] := by decide
    rw [show base.primaryKey = ["job_id"] from compatible.primaryKey]
    exact apart column member
  rw [upgraded_of_absent absent] at layout
  have countFree := free attemptCount (by decide)
  have budgetFree : (base.layout.withColumn attemptCount (some (.integer 0))).Free maxAttempts.name :=
    (free maxAttempts (by decide)).withColumn (by decide)
  have claimFree : ((base.layout.withColumn attemptCount (some (.integer 0))).withColumn maxAttempts
      (some (.integer 3))).Free claimedAt.name :=
    ((free claimedAt (by decide)).withColumn (by decide)).withColumn (by decide)
  have indexFound : table.layout.index? claimedAtIndex.name = some claimedAtIndex := by
    rw [layout]
    exact Layout.withIndex_index?_self
  obtain ⟨first, drops, firstLayout⟩ := Relation.dropIndex_ok indexFound
  rw [layout, Layout.withoutIndex_withIndex (by simpa using noIndex)] at firstLayout
  have claimFound : first.layout.column? claimedAt.name = some claimedAt := by
    rw [firstLayout]
    exact Layout.withColumn_column?_self
  obtain ⟨second, dropsSecond, secondLayout⟩ := Relation.dropColumn_ok claimFound
  rw [firstLayout, Layout.withoutColumn_withColumn claimFree] at secondLayout
  have budgetFound : second.layout.column? maxAttempts.name = some maxAttempts := by
    rw [secondLayout]
    exact Layout.withColumn_column?_self
  obtain ⟨third, dropsThird, thirdLayout⟩ := Relation.dropColumn_ok budgetFound
  rw [secondLayout, Layout.withoutColumn_withColumn budgetFree] at thirdLayout
  have countFound : third.layout.column? attemptCount.name = some attemptCount := by
    rw [thirdLayout]
    exact Layout.withColumn_column?_self
  obtain ⟨last, dropsLast, lastLayout⟩ := Relation.dropColumn_ok countFound
  rw [thirdLayout, Layout.withoutColumn_withColumn countFree] at lastLayout
  refine ⟨last, ?_, lastLayout⟩
  simp only [downgrade, onTable, drops, dropsSecond, dropsThird, dropsLast, bind, Except.bind]

theorem CreateEvaluationJobs.downgrade_ok
    (present : ∀ index ∈ indexes, table.layout.index? index.name = some index) :
    downgrade (some table) = .ok none := by
  obtain ⟨first, drops, firstLayout⟩ := Relation.dropIndex_ok (present tenantIdIndex (by decide))
  have statusFound : first.layout.index? statusIndex.name = some statusIndex := by
    rw [firstLayout]
    exact (Layout.withoutIndex_index?_of_ne (by decide)).trans (present statusIndex (by decide))
  obtain ⟨second, dropsSecond, secondLayout⟩ := Relation.dropIndex_ok statusFound
  have projectFound : second.layout.index? projectIdIndex.name = some projectIdIndex := by
    rw [secondLayout, firstLayout]
    exact (Layout.withoutIndex_index?_of_ne (by decide)).trans
      ((Layout.withoutIndex_index?_of_ne (by decide)).trans
        (present projectIdIndex (by decide)))
  obtain ⟨third, dropsThird, _⟩ := Relation.dropIndex_ok projectFound
  simp only [downgrade, onTable, drops, dropsSecond, dropsThird, bind, Except.bind]

/-- A table of the first release, without what the second revision adds. -/
structure FirstRelease (layout : JobsLayout) : Prop extends Compatible layout where
  noAttempts : ∀ column ∈ AddJobAttemptMetadata.columns, layout.column? column.name = none
  noIndex : layout.index? AddJobAttemptMetadata.claimedAtIndex.name = none

end Downgrade

end EvaluationService
