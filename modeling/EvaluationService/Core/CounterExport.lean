import EvaluationService.Core.ExpositionProperties

/-!
What is printed for a counter. The registry adds in double precision and prints with six
significant digits, so a count is printed exactly if it has no nonzero digit after the sixth.
-/

set_option autoImplicit false

namespace EvaluationService

open Foundation

/-! ## Sums of doubles -/

/-- A write of one series. -/
inductive MetricWrite where
  | add (key : MetricKey) (amount : ℚ)
  | set (key : MetricKey) (value : ℚ)
deriving DecidableEq

def MetricWrite.key : MetricWrite → MetricKey
  | add key _ | set key _ => key

/-- A sum is rounded before it is stored. -/
def MetricWrite.apply (round : ℚ → ℚ) (registry : MetricsRegistry) : MetricWrite → MetricsRegistry
  | add key amount => registry.set key (round (registry.value key + amount))
  | set key value => registry.set key value

def MetricCall.writes : MetricCall → List MetricWrite
  | increment name labels amount => [.add (name, MetricsRegistry.labelSet labels) amount]
  | setGauge name value labels => [.set (name, MetricsRegistry.labelSet labels) value]
  | observeDuration name seconds labels =>
      [.add (name ++ "_count", MetricsRegistry.labelSet labels) 1,
        .add (name ++ "_sum", MetricsRegistry.labelSet labels) seconds]

/-- The registry of exact numbers rounds no sum. -/
theorem MetricCall.apply_eq_writes (registry : MetricsRegistry) (call : MetricCall) :
    call.apply registry = call.writes.foldl (MetricWrite.apply id) registry := by
  cases call <;> rfl

/-- What the registry is asked for, its rendering included. -/
inductive MetricEvent where
  | call (request : MetricCall)
  | render

def MetricEvent.writes : MetricEvent → List MetricWrite
  | .call request => request.writes
  | .render => []

def writesOf (events : List MetricEvent) : List MetricWrite := events.flatMap MetricEvent.writes

/-- The registry after the events. -/
def floatRegistry (events : List MetricEvent) : MetricsRegistry :=
  (writesOf events).foldl (MetricWrite.apply Double.nearest) .empty

/-- Of the series, the events are `count` increments by one. -/
def UnitIncrements (key : MetricKey) (events : List MetricEvent) (count : Nat) : Prop :=
  (writesOf events).filter (fun write => write.key = key) = List.replicate count (.add key 1)

/-! ## What is printed -/

/-- The number that a line shows for a series. -/
def ExpositionLine.shown? (key : MetricKey) : ExpositionLine → Option String
  | sample other value => if other = key then some value else none
  | help _ _ | type _ _ | blank => none

def MetricsRegistry.printed? (registry : MetricsRegistry) (key : MetricKey) : Option String :=
  registry.renderLines.findSome? (ExpositionLine.shown? key)

/-- The number printed for the series denotes the count. Before the first increment there is
none. -/
def PrintedExactly (registry : MetricsRegistry) (key : MetricKey) (count : Nat) : Prop :=
  match registry.printed? key with
  | none => count = 0
  | some text => Decimal.denoted? text = some (count : ℚ)

/-- No nonzero digit after the sixth. -/
def SixSignificantDigits (number : Nat) : Prop :=
  ∃ leading < 10 ^ 6, ∃ zeros, number = leading * 10 ^ zeros

/-- Both renderings are exact, and they differ if the series was incremented between them. -/
structure ExportedExactly (earlier later : MetricsRegistry) (key : MetricKey)
    (count laterCount : Nat) : Prop where
  first : PrintedExactly earlier key count
  second : PrintedExactly later key laterCount
  distinct : count < laterCount → earlier.printed? key ≠ later.printed? key

/-! ## Counting -/

theorem UnitIncrements.le {key : MetricKey} {before between : List MetricEvent} {count later : Nat}
    (counts : UnitIncrements key before count)
    (countsLater : UnitIncrements key (before ++ between) later) : count ≤ later := by
  have lengths := congrArg List.length countsLater
  rw [writesOf, List.flatMap_append, List.filter_append, List.length_append] at lengths
  have own := congrArg List.length counts
  rw [List.length_replicate] at lengths own
  rw [← own, ← lengths]
  exact Nat.le_add_right _ _

theorem MetricWrite.value_apply_of_ne {write : MetricWrite} {key : MetricKey} {round : ℚ → ℚ}
    (other : write.key ≠ key) (registry : MetricsRegistry) :
    (write.apply round registry).value key = registry.value key := by
  cases write with
  | add own amount => exact (registry.value_set own key _).trans (if_neg (Ne.symm other))
  | set own value => exact (registry.value_set own key _).trans (if_neg (Ne.symm other))

theorem MetricWrite.mem_series_apply (write : MetricWrite) (round : ℚ → ℚ)
    (registry : MetricsRegistry) (key : MetricKey) :
    key ∈ (write.apply round registry).series ↔ key = write.key ∨ key ∈ registry.series := by
  cases write with
  | add own amount => exact registry.mem_series_set own key _
  | set own value => exact registry.mem_series_set own key _

/-- A counted series holds its count, and is there from the first increment on. -/
theorem counted_of_writes {key : MetricKey} (writes : List MetricWrite) :
    ∀ {count : Nat}, count < 2 ^ 53 →
      writes.filter (fun write => write.key = key) = List.replicate count (.add key 1) →
      (writes.foldl (MetricWrite.apply Double.nearest) .empty).value key = count ∧
        (key ∈ (writes.foldl (MetricWrite.apply Double.nearest) .empty).series ↔ 0 < count) := by
  induction writes using List.reverseRecOn with
  | nil =>
      intro count _ counts
      have none : 0 = count := by simpa using congrArg List.length counts
      rw [← none]
      exact ⟨rfl, by simp⟩
  | append_singleton earlier write ih =>
      intro count small counts
      rw [List.filter_append] at counts
      rw [List.foldl_append]
      by_cases own : write.key = key
      · rw [List.filter_cons_of_pos (by simpa using own), List.filter_nil] at counts
        cases count with
        | zero => simp at counts
        | succ before =>
            rw [List.replicate_succ'] at counts
            obtain ⟨front, last⟩ := List.append_inj' counts rfl
            obtain ⟨valued, _⟩ := ih (Nat.lt_of_succ_lt small) front
            rw [List.singleton_inj.mp last]
            constructor
            · -- the sum of the count and one is a double
              have exact := Double.nearest_natCast small
              rw [Nat.cast_succ] at exact ⊢
              exact (MetricsRegistry.value_set _ key key _).trans
                ((if_pos rfl).trans (valued ▸ exact))
            · rw [List.foldl_cons, List.foldl_nil, MetricWrite.mem_series_apply]
              exact ⟨fun _ => Nat.succ_pos before, fun _ => .inl rfl⟩
      · rw [List.filter_cons_of_neg (by simpa using own), List.filter_nil, List.append_nil] at counts
        obtain ⟨valued, present⟩ := ih small counts
        rw [List.foldl_cons, List.foldl_nil, MetricWrite.value_apply_of_ne own,
          MetricWrite.mem_series_apply]
        exact ⟨valued, or_iff_right (Ne.symm own) |>.trans present⟩

/-! ## Printing -/

namespace MetricsRegistry

variable {registry : MetricsRegistry} {key : MetricKey}

theorem value_of_mem_sortedValues {row : MetricKey × ℚ} (member : row ∈ registry.sortedValues) :
    registry.value row.1 = row.2 := by
  have stored : row ∈ registry.values.rows := (sortBy_perm _ _).mem_iff.mp member
  rw [value, registry.values.find?_of_mem stored]
  rfl

theorem text_of_shown? {line : ExpositionLine} {text : String} (member : line ∈ registry.renderLines)
    (shown : line.shown? key = some text) : text = Decimal.formatGeneral (registry.value key) := by
  rcases List.mem_append.mp member with inMetrics | isBlank
  · obtain ⟨name, _, inMetric⟩ := List.mem_flatMap.mp inMetrics
    rcases List.mem_append.mp inMetric with isComment | isSample
    · rcases List.mem_cons.mp isComment with rfl | isType
      · cases shown
      · rw [List.mem_singleton.mp isType] at shown
        cases shown
    · obtain ⟨row, isRow, rfl⟩ := List.mem_map.mp isSample
      rw [ExpositionLine.shown?] at shown
      split at shown
      · rename_i same
        rw [← same, value_of_mem_sortedValues (List.mem_of_mem_filter isRow)]
        exact (Option.some_inj.mp shown).symm
      · cases shown
  · rw [List.mem_singleton.mp isBlank] at shown
    cases shown

theorem sample_mem_renderLines (stored : key ∈ registry.series) :
    .sample key (Decimal.formatGeneral (registry.value key)) ∈ registry.renderLines := by
  obtain ⟨row, isRow, rfl⟩ := List.mem_map.mp (map_sortedValues_perm.mem_iff.mpr stored)
  rw [value_of_mem_sortedValues isRow]
  refine List.mem_append_left _ (List.mem_flatMap.mpr ⟨row.1.1, ?_, ?_⟩)
  · exact mem_metricNames.mpr ⟨row.1, stored, rfl⟩
  · refine List.mem_append_right _ (List.mem_map.mpr ⟨row, ?_, rfl⟩)
    exact List.mem_filter.mpr ⟨isRow, by simp⟩

theorem mem_series_of_shown? {line : ExpositionLine} {text : String}
    (member : line ∈ registry.renderLines) (shown : line.shown? key = some text) :
    key ∈ registry.series := by
  have isKey : line.key? = some key := by
    cases line with
    | sample other value =>
        rw [ExpositionLine.shown?] at shown
        split at shown
        · rename_i same
          rw [← same]
          rfl
        · cases shown
    | help name text => cases shown
    | type name kind => cases shown
    | blank => cases shown
  exact keys_renderLines.mem_iff.mp (List.mem_filterMap.mpr ⟨line, member, isKey⟩)

theorem printed?_eq (registry : MetricsRegistry) (key : MetricKey) :
    registry.printed? key =
      if key ∈ registry.series then some (Decimal.formatGeneral (registry.value key)) else none := by
  cases found : registry.printed? key with
  | none =>
      rw [if_neg]
      intro stored
      have missed := List.findSome?_eq_none_iff.mp found _ (sample_mem_renderLines stored)
      simp [ExpositionLine.shown?] at missed
  | some text =>
      obtain ⟨line, member, shown⟩ := List.exists_of_findSome?_eq_some found
      rw [if_pos (mem_series_of_shown? member shown), text_of_shown? member shown]

end MetricsRegistry

theorem sixSignificantDigits_iff (number : Nat) :
    SixSignificantDigits number ↔ 10 ^ (Nat.log 10 number - 5) ∣ number := by
  constructor
  · rintro ⟨leading, bound, zeros, rfl⟩
    have below : leading * 10 ^ zeros < 10 ^ (6 + zeros) := by
      rw [Nat.pow_add]
      exact Nat.mul_lt_mul_of_pos_right bound (Nat.pow_pos (by decide))
    have digits := Nat.log_lt_of_lt_pow' (by omega) below
    exact (pow_dvd_pow 10 (by omega)).trans (Dvd.intro_left leading rfl)
  · rintro ⟨leading, split⟩
    refine ⟨leading, ?_, Nat.log 10 number - 5, by rw [Nat.mul_comm]; exact split⟩
    have below := Nat.lt_pow_succ_log_self (show 1 < 10 by decide) number
    have shifted : 10 ^ (Nat.log 10 number - 5) * leading < 10 ^ (Nat.log 10 number - 5) * 10 ^ 6 := by
      rw [← split, ← Nat.pow_add]
      exact below.trans_le (Nat.pow_le_pow_right (by decide) (by omega))
    exact Nat.lt_of_mul_lt_mul_left shifted

theorem unitIncrements_replicate (name : String) (labels : List (String × String)) (count : Nat) :
    UnitIncrements (name, MetricsRegistry.labelSet labels)
      (List.replicate count (.call (.increment name labels 1))) count := by
  induction count with
  | zero => rfl
  | succ count ih =>
      rw [UnitIncrements, writesOf, List.replicate_succ, List.flatMap_cons, List.filter_append]
      exact (congrArg₂ _ (List.filter_cons_of_pos (by simp [MetricWrite.key])) ih).trans rfl

variable {key : MetricKey} {events : List MetricEvent} {count : Nat}

theorem printed?_floatRegistry (small : count < 2 ^ 53) (counts : UnitIncrements key events count) :
    (floatRegistry events).printed? key =
      if 0 < count then some (Decimal.formatGeneral count) else none := by
  obtain ⟨valued, present⟩ := counted_of_writes (writesOf events) small counts
  rw [MetricsRegistry.printed?_eq, floatRegistry, valued]
  exact if_congr present rfl rfl

theorem printedExactly_iff (small : count < 2 ^ 53) (counts : UnitIncrements key events count) :
    PrintedExactly (floatRegistry events) key count ↔ SixSignificantDigits count := by
  rw [PrintedExactly, printed?_floatRegistry small counts, sixSignificantDigits_iff]
  rcases Nat.eq_zero_or_pos count with rfl | positive
  · simp
  · rw [if_pos positive]
    exact Decimal.denoted?_formatGeneral_eq_iff count

/-- Counts are exported exactly just when each has no nonzero digit after its sixth. -/
theorem exported_exactly_iff (key : MetricKey) (before between : List MetricEvent)
    (count later : Nat) (small : later < 2 ^ 53) (counts : UnitIncrements key before count)
    (countsLater : UnitIncrements key (before ++ between) later) :
    ExportedExactly (floatRegistry before) (floatRegistry (before ++ between)) key count later ↔
      SixSignificantDigits count ∧ SixSignificantDigits later := by
  have fewer : count ≤ later := counts.le countsLater
  have first := printedExactly_iff (fewer.trans_lt small) counts
  have second := printedExactly_iff small countsLater
  constructor
  · intro exported
    exact ⟨first.mp exported.first, second.mp exported.second⟩
  · rintro ⟨few, fewLater⟩
    refine ⟨first.mpr few, second.mpr fewLater, fun incremented same => ?_⟩
    rw [printed?_floatRegistry (fewer.trans_lt small) counts, printed?_floatRegistry small countsLater,
      if_pos (Nat.zero_lt_of_lt incremented)] at same
    split at same
    · have texts := congrArg Decimal.denoted? (Option.some_inj.mp same)
      rw [(Decimal.denoted?_formatGeneral_eq_iff count).mpr ((sixSignificantDigits_iff count).mp few),
        (Decimal.denoted?_formatGeneral_eq_iff later).mpr
          ((sixSignificantDigits_iff later).mp fewLater)] at texts
      exact absurd (Nat.cast_inj.mp (Option.some_inj.mp texts)) (Nat.ne_of_lt incremented)
    · cases same

/-- What `record_job_status` does for a queued job. -/
def queuedRecorded : MetricEvent :=
  .call (.increment "evaluation_jobs_total" [("status", "queued")] 1)

def queuedSeries : MetricKey := ("evaluation_jobs_total", [("status", "queued")])

theorem unitIncrements_queued (count : Nat) :
    UnitIncrements queuedSeries (List.replicate count queuedRecorded) count :=
  unitIncrements_replicate "evaluation_jobs_total" [("status", "queued")] count

theorem exported_exactly_million :
    ExportedExactly (floatRegistry (List.replicate 999999 queuedRecorded))
      (floatRegistry (List.replicate 999999 queuedRecorded ++ List.replicate 1 queuedRecorded))
      queuedSeries 999999 1000000 := by
  refine (exported_exactly_iff queuedSeries _ _ 999999 1000000 (by decide) ?_ ?_).mpr ?_
  · exact unitIncrements_queued 999999
  · rw [List.replicate_append_replicate]
    exact unitIncrements_queued 1000000
  · exact ⟨⟨999999, by decide, 0, by decide⟩, ⟨1, by decide, 6, by decide⟩⟩

/-- The increment from 1000000 to 1000001 is not seen: both are printed as 1e+06. -/
theorem not_exported_exactly :
    ¬ ∀ (key : MetricKey) (before between : List MetricEvent) (count later : Nat),
      later < 2 ^ 53 → UnitIncrements key before count →
      UnitIncrements key (before ++ between) later →
      ExportedExactly (floatRegistry before) (floatRegistry (before ++ between)) key count later := by
  intro exported
  have counts := unitIncrements_queued 1000000
  have countsLater : UnitIncrements queuedSeries
      (List.replicate 1000000 queuedRecorded ++ List.replicate 1 queuedRecorded) 1000001 := by
    rw [List.replicate_append_replicate]
    exact unitIncrements_queued 1000001
  have distinct :=
    (exported queuedSeries _ _ 1000000 1000001 (by decide) counts countsLater).distinct (by decide)
  rw [printed?_floatRegistry (by decide) counts, printed?_floatRegistry (by decide) countsLater]
    at distinct
  have same : Decimal.formatGeneral ((1000000 : Nat) : ℚ) =
      Decimal.formatGeneral ((1000001 : Nat) : ℚ) := by
    decide +kernel
  exact distinct (congrArg some same)

end EvaluationService
