import Mathlib.Data.List.Nodup
import Mathlib.Logic.Function.Basic

/-!
Tables whose schema changes. A statement of a data definition language is refused, or changes
columns, indexes and the rows with them. Columns and indexes are looked up by name: their order
is of no consequence.
-/

set_option autoImplicit false

namespace Foundation

structure Column (Kind Value : Type) where
  name : String
  kind : Kind
  nullable : Bool
  default : Option Value := none
deriving DecidableEq, Repr

structure Index where
  name : String
  columns : List String
deriving DecidableEq, Repr

inductive SchemaError where
  | duplicateColumn
  | duplicateIndex
  | notNullViolation
  | undefinedColumn
  | undefinedIndex
  | undefinedTable
deriving DecidableEq, Repr

/-- A table with its rows. A row gives each column a value, or none for `NULL`. -/
structure Relation (Kind Value : Type) where
  columns : List (Column Kind Value)
  primaryKey : List String
  indexes : List Index
  rows : List (String → Option Value)
  columnsDistinct : (columns.map Column.name).Nodup
  indexesDistinct : (indexes.map Index.name).Nodup
  indexed : ∀ index ∈ indexes, ∀ name ∈ index.columns, name ∈ columns.map Column.name
  required : ∀ row ∈ rows, ∀ column ∈ columns, column.nullable = false → (row column.name).isSome
  blank : ∀ row ∈ rows, ∀ name, name ∉ columns.map Column.name → row name = none

namespace Relation

variable {Kind Value : Type}

/-! ## Statements -/

def createTable (columns : List (Column Kind Value)) (primaryKey : List String)
    (distinct : (columns.map Column.name).Nodup) : Relation Kind Value where
  columns := columns
  primaryKey := primaryKey
  indexes := []
  rows := []
  columnsDistinct := distinct
  indexesDistinct := .nil
  indexed := by
    intro index member
    cases member
  required := by
    intro row member
    cases member
  blank := by
    intro row member
    cases member

/-- Rows get the default of a new column, which may not be `NULL` where a value is required. -/
def addColumn (column : Column Kind Value) (relation : Relation Kind Value) :
    Except SchemaError (Relation Kind Value) :=
  if absent : column.name ∉ relation.columns.map Column.name then
    if filled : column.nullable = true ∨ column.default.isSome = true ∨ relation.rows = [] then
      .ok {
        columns := relation.columns ++ [column]
        primaryKey := relation.primaryKey
        indexes := relation.indexes
        rows := relation.rows.map fun row => Function.update row column.name column.default
        columnsDistinct := by
          rw [List.map_append, List.nodup_append]
          refine ⟨relation.columnsDistinct, List.nodup_singleton _, ?_⟩
          intro name member other isNew same
          rw [List.map_singleton, List.mem_singleton] at isNew
          rw [same, isNew] at member
          exact absent member
        indexesDistinct := relation.indexesDistinct
        indexed := by
          intro index member name part
          rw [List.map_append]
          exact List.mem_append_left _ (relation.indexed index member name part)
        required := by
          intro row member other isOther notNull
          obtain ⟨old, isOld, rfl⟩ := List.mem_map.mp member
          rcases List.mem_append.mp isOther with earlier | new
          · have different : other.name ≠ column.name := by
              intro same
              rw [← same] at absent
              exact absent (List.mem_map_of_mem earlier)
            rw [Function.update_of_ne different]
            exact relation.required old isOld other earlier notNull
          · obtain rfl := List.mem_singleton.mp new
            rw [Function.update_self]
            rcases filled with nullable | given | noRows
            · rw [notNull] at nullable
              cases nullable
            · exact given
            · rw [noRows] at isOld
              cases isOld
        blank := by
          intro row member name outside
          obtain ⟨old, isOld, rfl⟩ := List.mem_map.mp member
          rw [List.map_append, List.mem_append, not_or, List.map_singleton, List.mem_singleton]
            at outside
          rw [Function.update_of_ne outside.2]
          exact relation.blank old isOld name outside.1 }
    else .error .notNullViolation
  else .error .duplicateColumn

theorem map_name_dropDefault (name : String) (columns : List (Column Kind Value)) :
    (columns.map fun column =>
      if column.name = name then { column with default := none } else column).map Column.name =
    columns.map Column.name := by
  rw [List.map_map]
  refine List.map_congr_left fun column _ => ?_
  dsimp only [Function.comp]
  split <;> rfl

/-- `ALTER COLUMN name DROP DEFAULT`, which leaves the rows as they are. -/
def dropDefault (name : String) (relation : Relation Kind Value) :
    Except SchemaError (Relation Kind Value) :=
  if name ∈ relation.columns.map Column.name then
    .ok {
      columns := relation.columns.map fun column =>
        if column.name = name then { column with default := none } else column
      primaryKey := relation.primaryKey
      indexes := relation.indexes
      rows := relation.rows
      columnsDistinct := by
        rw [map_name_dropDefault]
        exact relation.columnsDistinct
      indexesDistinct := relation.indexesDistinct
      indexed := by
        rw [map_name_dropDefault]
        exact relation.indexed
      required := by
        intro row member column isColumn notNull
        obtain ⟨old, isOld, rfl⟩ := List.mem_map.mp isColumn
        have kept := relation.required row member old isOld
        by_cases named : old.name = name
        · rw [if_pos named] at notNull ⊢
          exact kept notNull
        · rw [if_neg named] at notNull ⊢
          exact kept notNull
      blank := by
        rw [map_name_dropDefault]
        exact relation.blank }
  else .error .undefinedColumn

/-- A column goes with its values and with the indexes and the key that it is part of. -/
def dropColumn (name : String) (relation : Relation Kind Value) :
    Except SchemaError (Relation Kind Value) :=
  if name ∈ relation.columns.map Column.name then
    .ok {
      columns := relation.columns.filter fun column => column.name ≠ name
      primaryKey := if name ∈ relation.primaryKey then [] else relation.primaryKey
      indexes := relation.indexes.filter fun index => name ∉ index.columns
      rows := relation.rows.map fun row => Function.update row name none
      columnsDistinct := relation.columnsDistinct.sublist (List.filter_sublist.map _)
      indexesDistinct := relation.indexesDistinct.sublist (List.filter_sublist.map _)
      indexed := by
        intro index member other part
        obtain ⟨isOld, apart⟩ := List.mem_filter.mp member
        obtain ⟨column, isColumn, rfl⟩ := List.mem_map.mp (relation.indexed index isOld other part)
        refine List.mem_map_of_mem (List.mem_filter.mpr ⟨isColumn, decide_eq_true ?_⟩)
        intro same
        rw [same] at part
        exact of_decide_eq_true apart part
      required := by
        intro row member column isColumn notNull
        obtain ⟨old, isOld, rfl⟩ := List.mem_map.mp member
        obtain ⟨isOldColumn, different⟩ := List.mem_filter.mp isColumn
        rw [Function.update_of_ne (of_decide_eq_true different)]
        exact relation.required old isOld column isOldColumn notNull
      blank := by
        intro row member other outside
        obtain ⟨old, isOld, rfl⟩ := List.mem_map.mp member
        by_cases same : other = name
        · rw [same, Function.update_self]
        · rw [Function.update_of_ne same]
          refine relation.blank old isOld other fun inside => outside ?_
          obtain ⟨column, isColumn, rfl⟩ := List.mem_map.mp inside
          exact List.mem_map_of_mem (List.mem_filter.mpr ⟨isColumn, decide_eq_true same⟩) }
  else .error .undefinedColumn

def createIndex (index : Index) (relation : Relation Kind Value) :
    Except SchemaError (Relation Kind Value) :=
  if absent : index.name ∉ relation.indexes.map Index.name then
    if known : ∀ name ∈ index.columns, name ∈ relation.columns.map Column.name then
      .ok { relation with
        indexes := relation.indexes ++ [index]
        indexesDistinct := by
          rw [List.map_append, List.nodup_append]
          refine ⟨relation.indexesDistinct, List.nodup_singleton _, ?_⟩
          intro name member other isNew same
          rw [List.map_singleton, List.mem_singleton] at isNew
          rw [same, isNew] at member
          exact absent member
        indexed := by
          intro other isOther
          rcases List.mem_append.mp isOther with earlier | new
          · exact relation.indexed other earlier
          · rw [List.mem_singleton.mp new]
            exact known }
    else .error .undefinedColumn
  else .error .duplicateIndex

def dropIndex (name : String) (relation : Relation Kind Value) :
    Except SchemaError (Relation Kind Value) :=
  if name ∈ relation.indexes.map Index.name then
    .ok { relation with
      indexes := relation.indexes.filter fun index => index.name ≠ name
      indexesDistinct := relation.indexesDistinct.sublist (List.filter_sublist.map _)
      indexed := fun index member => relation.indexed index (List.mem_of_mem_filter member) }
  else .error .undefinedIndex

/-! ## Layouts -/

end Relation

/-- A table by the names of its parts. -/
structure Layout (Kind Value : Type) where
  column? : String → Option (Column Kind Value)
  index? : String → Option Index
  primaryKey : List String
  rows : List (String → Option Value)

namespace Layout

variable {Kind Value : Type}

def withColumn (column : Column Kind Value) (value : Option Value) (layout : Layout Kind Value) :
    Layout Kind Value :=
  { layout with
    column? := Function.update layout.column? column.name (some column)
    rows := layout.rows.map fun row => Function.update row column.name value }

def withoutColumn (name : String) (layout : Layout Kind Value) : Layout Kind Value where
  column? := Function.update layout.column? name none
  index? other := (layout.index? other).filter fun index => name ∉ index.columns
  primaryKey := if name ∈ layout.primaryKey then [] else layout.primaryKey
  rows := layout.rows.map fun row => Function.update row name none

def withIndex (index : Index) (layout : Layout Kind Value) : Layout Kind Value :=
  { layout with index? := Function.update layout.index? index.name (some index) }

def withoutIndex (name : String) (layout : Layout Kind Value) : Layout Kind Value :=
  { layout with index? := Function.update layout.index? name none }

/-- A column that is missing comes with a value for the rows that exist. -/
def fillColumn (column : Column Kind Value) (value : Option Value) (layout : Layout Kind Value) :
    Layout Kind Value :=
  if (layout.column? column.name).isSome then layout else layout.withColumn column value

/-- Nothing of the table is about a column of this name. -/
structure Free (layout : Layout Kind Value) (name : String) : Prop where
  column : layout.column? name = none
  notKey : name ∉ layout.primaryKey
  notIndexed : ∀ other index, layout.index? other = some index → name ∉ index.columns
  blank : ∀ row ∈ layout.rows, row name = none

section Laws

variable {layout : Layout Kind Value} {column : Column Kind Value} {index : Index}
variable {value : Option Value} {name : String}

@[simp] theorem withColumn_index? : (layout.withColumn column value).index? = layout.index? := rfl

@[simp] theorem withColumn_primaryKey :
    (layout.withColumn column value).primaryKey = layout.primaryKey := rfl

@[simp] theorem withIndex_column? : (layout.withIndex index).column? = layout.column? := rfl

@[simp] theorem withIndex_primaryKey : (layout.withIndex index).primaryKey = layout.primaryKey := rfl

@[simp] theorem withIndex_rows : (layout.withIndex index).rows = layout.rows := rfl

theorem withColumn_column?_self :
    (layout.withColumn column value).column? column.name = some column :=
  Function.update_self _ _ _

theorem withColumn_column?_of_ne (different : name ≠ column.name) :
    (layout.withColumn column value).column? name = layout.column? name :=
  Function.update_of_ne different _ _

theorem withoutIndex_index?_of_ne {removed : String} (different : name ≠ removed) :
    (layout.withoutIndex removed).index? name = layout.index? name :=
  Function.update_of_ne different _ _

theorem withIndex_of_present (present : layout.index? index.name = some index) :
    layout.withIndex index = layout := by
  unfold withIndex
  rw [← present, Function.update_eq_self]

theorem withIndex_index?_self : (layout.withIndex index).index? index.name = some index :=
  Function.update_self _ _ _

theorem withIndex_index?_of_ne (different : name ≠ index.name) :
    (layout.withIndex index).index? name = layout.index? name :=
  Function.update_of_ne different _ _

@[simp] theorem fillColumn_index? : (layout.fillColumn column value).index? = layout.index? := by
  unfold fillColumn
  split <;> rfl

@[simp] theorem fillColumn_primaryKey :
    (layout.fillColumn column value).primaryKey = layout.primaryKey := by
  unfold fillColumn
  split <;> rfl

theorem fillColumn_of_present {found : Column Kind Value}
    (present : layout.column? column.name = some found) :
    layout.fillColumn column value = layout := by
  rw [fillColumn, present, if_pos Option.isSome_some]

theorem fillColumn_of_absent (absent : layout.column? column.name = none) :
    layout.fillColumn column value = layout.withColumn column value := by
  rw [fillColumn, absent]
  rfl

theorem fillColumn_column?_self
    (known : layout.column? column.name = none ∨ layout.column? column.name = some column) :
    (layout.fillColumn column value).column? column.name = some column := by
  rcases known with absent | present
  · rw [fillColumn_of_absent absent]
    exact withColumn_column?_self
  · rw [fillColumn_of_present present]
    exact present

theorem fillColumn_column?_of_ne (different : name ≠ column.name) :
    (layout.fillColumn column value).column? name = layout.column? name := by
  unfold fillColumn
  split
  · rfl
  · exact withColumn_column?_of_ne different

theorem fillColumn_rows : (layout.fillColumn column value).rows = layout.rows.map fun row =>
    if (layout.column? column.name).isSome then row else Function.update row column.name value := by
  unfold fillColumn
  cases (layout.column? column.name).isSome with
  | false => rfl
  | true => exact (List.map_id _).symm

theorem Free.withColumn (free : layout.Free name) (different : column.name ≠ name) :
    (layout.withColumn column value).Free name where
  column := (withColumn_column?_of_ne different.symm).trans free.column
  notKey := free.notKey
  notIndexed := free.notIndexed
  blank := by
    intro row member
    obtain ⟨old, isOld, rfl⟩ := List.mem_map.mp member
    rw [Function.update_of_ne different.symm]
    exact free.blank old isOld

/-- Dropping a new column leaves nothing of it. -/
theorem withoutColumn_withColumn (free : layout.Free column.name) :
    (layout.withColumn column value).withoutColumn column.name = layout := by
  obtain ⟨column?, index?, primaryKey, rows⟩ := layout
  obtain ⟨absent, notKey, notIndexed, blank⟩ := free
  dsimp only at absent notKey notIndexed blank
  unfold withColumn withoutColumn
  dsimp only
  congr 1
  · rw [Function.update_idem, ← absent, Function.update_eq_self]
  · funext other
    cases found : index? other with
    | none => rfl
    | some index => simp [Option.filter, notIndexed other index found]
  · exact if_neg notKey
  · rw [List.map_map]
    refine (List.map_congr_left fun row member => ?_).trans (List.map_id _)
    dsimp only [Function.comp, id]
    rw [Function.update_idem, ← blank row member, Function.update_eq_self]

theorem withoutIndex_withIndex (absent : layout.index? index.name = none) :
    (layout.withIndex index).withoutIndex index.name = layout := by
  obtain ⟨column?, index?, primaryKey, rows⟩ := layout
  dsimp only at absent
  unfold withIndex withoutIndex
  dsimp only
  rw [Function.update_idem, ← absent, Function.update_eq_self]

end Laws

end Layout

namespace Relation

variable {Kind Value : Type}

/-- What is found by name, which is all that statements depend on. -/
def layout (relation : Relation Kind Value) : Layout Kind Value where
  column? name := relation.columns.find? fun column => column.name = name
  index? name := relation.indexes.find? fun index => index.name = name
  primaryKey := relation.primaryKey
  rows := relation.rows

section Lookups

variable {Item : Type} {items : List Item} {label : Item → String}

theorem find?_label_eq_none_iff {name : String} :
    (items.find? fun item => label item = name) = none ↔ name ∉ items.map label := by
  rw [List.find?_eq_none, List.mem_map]
  simp

theorem find?_label_append {item : Item} (absent : label item ∉ items.map label) :
    (fun name => (items ++ [item]).find? fun other => label other = name) =
      Function.update (fun name => items.find? fun other => label other = name) (label item)
        (some item) := by
  funext name
  rw [List.find?_append]
  by_cases same : name = label item
  · subst same
    rw [Function.update_self, find?_label_eq_none_iff.mpr absent]
    simp
  · rw [Function.update_of_ne same]
    simp [Ne.symm same]

/-- Where labels are distinct, at most one item is found for each. -/
theorem find?_label_filter (distinct : (items.map label).Nodup) (test : Item → Bool) (name : String) :
    ((items.filter test).find? fun item => label item = name) =
      (items.find? fun item => label item = name).filter test := by
  induction items with
  | nil => rfl
  | cons item others ih =>
      rw [List.map_cons, List.nodup_cons] at distinct
      have rest := ih distinct.2
      by_cases labelled : label item = name
      · have none : (others.find? fun item => label item = name) = none := by
          rw [find?_label_eq_none_iff, ← labelled]
          exact distinct.1
        rw [none] at rest
        cases passes : test item <;> simp [passes, labelled, rest, Option.filter]
      · cases passes : test item <;> simp [passes, labelled, rest]

theorem find?_label_filter_ne (distinct : (items.map label).Nodup) (removed : String) :
    (fun name => (items.filter fun item => label item ≠ removed).find? fun item =>
        label item = name) =
      Function.update (fun name => items.find? fun item => label item = name) removed none := by
  funext name
  rw [find?_label_filter distinct]
  by_cases same : name = removed
  · subst same
    rw [Function.update_self, Option.filter_eq_none_iff]
    intro item found
    simpa using List.find?_some found
  · rw [Function.update_of_ne same]
    cases found : items.find? fun item => label item = name with
    | none => rfl
    | some item =>
        have labelled : label item = name := by simpa using List.find?_some found
        simp [Option.filter, labelled, same]

end Lookups

section Statements

variable {relation : Relation Kind Value} {column : Column Kind Value} {index : Index}
variable {name : String}

theorem layout_column?_eq_none_iff :
    relation.layout.column? name = none ↔ name ∉ relation.columns.map Column.name :=
  find?_label_eq_none_iff

theorem layout_index?_eq_none_iff :
    relation.layout.index? name = none ↔ name ∉ relation.indexes.map Index.name :=
  find?_label_eq_none_iff

theorem mem_column_names_iff :
    name ∈ relation.columns.map Column.name ↔ (relation.layout.column? name).isSome := by
  rw [← not_iff_not, ← layout_column?_eq_none_iff]
  simp

theorem mem_index_names_iff :
    name ∈ relation.indexes.map Index.name ↔ (relation.layout.index? name).isSome := by
  rw [← not_iff_not, ← layout_index?_eq_none_iff]
  simp

theorem mem_column_names (found : relation.layout.column? name = some column) :
    name ∈ relation.columns.map Column.name := by
  rw [mem_column_names_iff, found]
  rfl

theorem mem_index_names (found : relation.layout.index? name = some index) :
    name ∈ relation.indexes.map Index.name := by
  rw [mem_index_names_iff, found]
  rfl

theorem addColumn_ok (absent : relation.layout.column? column.name = none)
    (filled : column.nullable = true ∨ column.default.isSome = true) :
    ∃ next, relation.addColumn column = .ok next ∧
      next.layout = relation.layout.withColumn column column.default := by
  have new := layout_column?_eq_none_iff.mp absent
  have accepted : column.nullable = true ∨ column.default.isSome = true ∨ relation.rows = [] :=
    filled.elim .inl fun given => .inr (.inl given)
  refine ⟨_, (dif_pos new).trans (dif_pos accepted), ?_⟩
  unfold layout Layout.withColumn
  rw [find?_label_append new]

theorem dropDefault_ok (found : relation.layout.column? name = some column) :
    ∃ next, relation.dropDefault name = .ok next ∧
      next.layout = { relation.layout with
        column? := Function.update relation.layout.column? name
          (some { column with default := none }) } := by
  refine ⟨_, if_pos (mem_column_names found), ?_⟩
  unfold layout
  congr 1
  funext other
  have named : (fun column : Column Kind Value => decide (column.name = other)) ∘
      (fun column => if column.name = name then { column with default := none } else column) =
      fun column => decide (column.name = other) := by
    funext column
    dsimp only [Function.comp]
    split <;> rfl
  rw [List.find?_map, named]
  by_cases same : other = name
  · subst same
    have labelled : column.name = other := by simpa using List.find?_some found
    rw [Function.update_self]
    change (relation.layout.column? other).map _ = _
    rw [found, Option.map_some, if_pos labelled]
  · rw [Function.update_of_ne same]
    change _ = relation.columns.find? fun column => column.name = other
    cases other? : relation.columns.find? fun column => column.name = other with
    | none => rfl
    | some column =>
        have labelled : column.name = other := by simpa using List.find?_some other?
        rw [Option.map_some, if_neg (labelled ▸ same)]

theorem dropColumn_ok (found : relation.layout.column? name = some column) :
    ∃ next, relation.dropColumn name = .ok next ∧
      next.layout = relation.layout.withoutColumn name := by
  refine ⟨_, if_pos (mem_column_names found), ?_⟩
  unfold layout Layout.withoutColumn
  congr 1
  · exact find?_label_filter_ne relation.columnsDistinct name
  · funext other
    exact find?_label_filter relation.indexesDistinct _ other

theorem createIndex_ok (absent : relation.layout.index? index.name = none)
    (known : ∀ name ∈ index.columns, ∃ column, relation.layout.column? name = some column) :
    ∃ next, relation.createIndex index = .ok next ∧
      next.layout = relation.layout.withIndex index := by
  have new := layout_index?_eq_none_iff.mp absent
  have present : ∀ name ∈ index.columns, name ∈ relation.columns.map Column.name := by
    intro name member
    obtain ⟨column, found⟩ := known name member
    exact mem_column_names found
  refine ⟨_, (dif_pos new).trans (dif_pos present), ?_⟩
  unfold layout Layout.withIndex
  rw [find?_label_append new]

theorem dropIndex_ok (found : relation.layout.index? name = some index) :
    ∃ next, relation.dropIndex name = .ok next ∧
      next.layout = relation.layout.withoutIndex name := by
  refine ⟨_, if_pos (mem_index_names found), ?_⟩
  unfold layout Layout.withoutIndex
  congr 1
  exact find?_label_filter_ne relation.indexesDistinct name

theorem free_of_absent (absent : relation.layout.column? name = none)
    (notKey : name ∉ relation.primaryKey) : relation.layout.Free name where
  column := absent
  notKey := notKey
  notIndexed := by
    intro other index found part
    exact layout_column?_eq_none_iff.mp absent
      (relation.indexed index (List.mem_of_find?_eq_some found) name part)
  blank := by
    intro row member
    exact relation.blank row member name (layout_column?_eq_none_iff.mp absent)

end Statements

end Relation

end Foundation
