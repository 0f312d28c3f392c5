import EvaluationService.Core.Exposition

/-!
The exposition is unambiguous: whatever the label values are, a scraper reads back the lines
that were written, so each stored series once, under the help and type lines of its metric.
-/

set_option autoImplicit false

namespace EvaluationService

open Foundation

/-! ## Label values -/

def escapeCharacter (character : Char) : List Char :=
  if character = '\\' then ['\\', '\\']
  else if character = '\n' then ['\\', 'n']
  else if character = '"' then ['\\', '"']
  else [character]

/-- The three replacements, one after the other, escape each character on its own. -/
theorem escapeLabel_characters (value : String) :
    (escapeLabel value).toList = value.toList.flatMap escapeCharacter := by
  simp only [escapeLabel, replaceCharacter, String.toList_ofList, List.flatMap_assoc]
  congr 1
  funext character
  unfold escapeCharacter
  by_cases backslash : character = '\\'
  · subst backslash
    decide
  · by_cases newline : character = '\n'
    · subst newline
      decide
    · by_cases quote : character = '"'
      · subst quote
        decide
      · simp [backslash, newline, quote]

theorem newline_not_mem_escapeLabel (value : String) : '\n' ∉ (escapeLabel value).toList := by
  rw [escapeLabel_characters, List.mem_flatMap]
  rintro ⟨character, _, member⟩
  unfold escapeCharacter at member
  split at member
  · simp at member
  · split at member
    · simp at member
    · rename_i different
      split at member
      · simp at member
      · exact different (List.mem_singleton.mp member).symm

theorem labelValue?_cons {character : Char} {rest : List Char} (noQuote : character ≠ '"')
    (noBackslash : character ≠ '\\') :
    labelValue? (character :: rest) =
      (labelValue? rest).map fun read => (character :: read.1, read.2) := by
  rw [labelValue?]
  · exact noQuote
  all_goals simp_all

/-- Reading a quoted value undoes its escaping and stops at the closing quote. -/
theorem labelValue?_escaped (characters rest : List Char) :
    labelValue? (characters.flatMap escapeCharacter ++ '"' :: rest) = some (characters, rest) := by
  induction characters with
  | nil => rfl
  | cons character others ih =>
      rw [List.flatMap_cons, List.append_assoc, escapeCharacter]
      split
      · rename_i backslash
        subst backslash
        exact congrArg (Option.map _) ih
      · split
        · rename_i newline
          subst newline
          exact congrArg (Option.map _) ih
        · split
          · rename_i quote
            subst quote
            exact congrArg (Option.map _) ih
          · rename_i noBackslash _ noQuote
            rw [List.singleton_append, labelValue?_cons noQuote noBackslash, ih]
            rfl

/-! ## Names and labels -/

/-- A name is read up to the first character that cannot be part of it. -/
theorem name?_append {isPart : Char → Bool} {valid : String → Bool} {name : String}
    {stop : Char} {rest : List Char} (parts : name.toList.all isPart) (isValid : valid name = true)
    (stops : isPart stop = false) :
    name? isPart valid (name.toList ++ stop :: rest) = some (name, stop :: rest) := by
  have goesOn : ∀ character ∈ name.toList, isPart character = true := List.all_eq_true.mp parts
  unfold name?
  rw [List.takeWhile_append_of_pos goesOn, List.dropWhile_append_of_pos goesOn,
    List.takeWhile_cons_of_neg (by simp [stops]), List.dropWhile_cons_of_neg (by simp [stops]),
    List.append_nil, String.ofList_toList]
  exact if_pos isValid

theorem metricName?_append {name : String} {stop : Char} {rest : List Char}
    (isName : IsMetricName name) (stops : isNamePart stop = false) :
    metricName? (name.toList ++ stop :: rest) = some (name, stop :: rest) :=
  name?_append isName.2 (decide_eq_true isName) stops

def labelCharacters (label : String × String) : List Char :=
  label.1.toList ++ '=' :: '"' :: (label.2.toList.flatMap escapeCharacter ++ ['"'])

theorem labelText_characters (label : String × String) :
    (labelText label).toList = labelCharacters label := by
  simp only [labelText, String.toList_append, escapeLabel_characters]
  simp [labelCharacters]

theorem label?_labelCharacters {label : String × String} (isName : IsLabelName label.1)
    (rest : List Char) : label? (labelCharacters label ++ rest) = some (label, rest) := by
  have split : labelCharacters label ++ rest = label.1.toList ++
      '=' :: '"' :: (label.2.toList.flatMap escapeCharacter ++ '"' :: rest) := by
    simp [labelCharacters]
  have name : labelName? (labelCharacters label ++ rest) = some (label.1,
      '=' :: '"' :: (label.2.toList.flatMap escapeCharacter ++ '"' :: rest)) := by
    rw [split]
    exact name?_append isName.2 (decide_eq_true isName) (by decide)
  rw [label?, name, Option.bind_some]
  refine (congrArg (Option.map _) (labelValue?_escaped _ _)).trans ?_
  rw [Option.map_some]
  dsimp only
  rw [String.ofList_toList]

theorem labelCharacters_ne_nil (label : String × String) : labelCharacters label ≠ [] := by
  simp [labelCharacters]

/-- A label does not start with the brace that ends the labels. -/
theorem head?_labelCharacters {label : String × String} (isName : IsLabelName label.1)
    (rest : List Char) : (labelCharacters label ++ rest).head? ≠ some '}' := by
  obtain ⟨⟨first, isFirst, letter⟩, _⟩ := isName
  obtain ⟨others, split⟩ := List.head?_eq_some_iff.mp isFirst
  intro brace
  rw [labelCharacters, split, List.cons_append, List.cons_append, List.head?_cons,
    Option.some_inj] at brace
  rw [brace] at letter
  exact absurd letter (by decide)

/-- The labels joined by commas. -/
def labelsCharacters (labels : LabelSet) : List Char :=
  [','].intercalate (labels.map labelCharacters)

theorem labelsCharacters_cons (label next : String × String) (others : LabelSet) :
    labelsCharacters (label :: next :: others) =
      labelCharacters label ++ ',' :: labelsCharacters (next :: others) := by
  simp [labelsCharacters, List.intercalate]

theorem mem_labelsCharacters {labels : LabelSet} {character : Char}
    (member : character ∈ labelsCharacters labels) :
    character = ',' ∨ ∃ label ∈ labels, character ∈ labelCharacters label := by
  induction labels with
  | nil => cases member
  | cons label others ih =>
      cases others with
      | nil => exact .inr ⟨label, List.mem_cons_self, by simpa [labelsCharacters] using member⟩
      | cons next rest =>
          rw [labelsCharacters_cons] at member
          rcases List.mem_append.mp member with inFirst | member
          · exact .inr ⟨label, List.mem_cons_self, inFirst⟩
          · rcases List.mem_cons.mp member with comma | inOthers
            · exact .inl comma
            · rcases ih inOthers with comma | ⟨other, isOther, inOther⟩
              · exact .inl comma
              · exact .inr ⟨other, List.mem_cons_of_mem _ isOther, inOther⟩

theorem length_le_labelsCharacters (labels : LabelSet) :
    labels.length ≤ (labelsCharacters labels).length := by
  induction labels with
  | nil => exact Nat.zero_le _
  | cons label others ih =>
      have one := List.length_pos_iff.mpr (labelCharacters_ne_nil label)
      cases others with
      | nil => simpa [labelsCharacters, Nat.succ_le_iff] using one
      | cons next rest =>
          simp only [labelsCharacters_cons, List.length_append, List.length_cons] at ih ⊢
          omega

theorem labels?_labelsCharacters {labels : LabelSet} (nonempty : labels ≠ [])
    (names : ∀ label ∈ labels, IsLabelName label.1) {fuel : Nat} (enough : labels.length ≤ fuel)
    (rest : List Char) :
    labels? fuel (labelsCharacters labels ++ '}' :: rest) = some (labels, rest) := by
  induction labels generalizing fuel with
  | nil => exact absurd rfl nonempty
  | cons label others ih =>
      have isName := names label List.mem_cons_self
      obtain ⟨fuel, rfl⟩ : ∃ less, fuel = less + 1 :=
        Nat.exists_eq_succ_of_ne_zero (by rw [List.length_cons] at enough; omega)
      cases others with
      | nil =>
          have single : labelsCharacters [label] = labelCharacters label := by
            simp [labelsCharacters]
          rw [single, labels?, if_neg (head?_labelCharacters isName _),
            label?_labelCharacters isName, Option.bind_some]
          rfl
      | cons next further =>
          have remaining : labels? fuel (labelsCharacters (next :: further) ++ '}' :: rest) =
              some (next :: further, rest) :=
            ih (by simp) (fun other member => names other (List.mem_cons_of_mem _ member))
              (by simpa using enough)
          rw [labelsCharacters_cons, List.append_assoc, List.cons_append, labels?,
            if_neg (head?_labelCharacters isName _), label?_labelCharacters isName,
            Option.bind_some]
          exact congrArg (Option.map _) remaining

/-! ## Lines -/

def SoundKey (key : MetricKey) : Prop :=
  IsMetricName key.1 ∧ ∀ label ∈ key.2, IsLabelName label.1

/-- The lines that the rendering of well-named series consists of. -/
def ExpositionLine.Sound : ExpositionLine → Prop
  | help name text => IsMetricName name ∧ '\n' ∉ text.toList
  | type name kind => IsMetricName name ∧ kind ∈ metricTypes
  | sample key value => SoundKey key ∧ '\n' ∉ value.toList ∧ (Decimal.denoted? value).isSome
  | blank => True

theorem formatLabels_characters {labels : LabelSet} (nonempty : labels ≠ []) :
    (formatLabels labels).toList = '{' :: (labelsCharacters labels ++ ['}']) := by
  have written : (labels.map labelText).map String.toList = labels.map labelCharacters := by
    rw [List.map_map]
    exact List.map_congr_left fun label _ => labelText_characters label
  have some : labels.isEmpty = false := by simpa using nonempty
  rw [formatLabels, if_neg (by simp [some]), String.toList_append, String.toList_append, Text.join,
    String.toList_ofList, written]
  simp [labelsCharacters]

/-- A label set is read back, with what follows it after a blank. -/
theorem labelSet?_formatLabels {labels : LabelSet} (names : ∀ label ∈ labels, IsLabelName label.1)
    (rest : List Char) :
    labelSet? ((formatLabels labels).toList ++ ' ' :: rest) = some (labels, ' ' :: rest) := by
  cases labels with
  | nil => rfl
  | cons label others =>
      have nonempty : label :: others ≠ [] := by simp
      have enough := length_le_labelsCharacters (label :: others)
      rw [formatLabels_characters nonempty, List.cons_append, List.append_assoc,
        List.singleton_append, labelSet?]
      refine labels?_labelsCharacters nonempty names ?_ _
      simp only [List.length_cons, List.length_append] at enough ⊢
      omega

theorem sample?_characters {key : MetricKey} (sound : SoundKey key) {value : String}
    (isNumber : (Decimal.denoted? value).isSome) :
    sample? (ExpositionLine.sample key value).text.toList = some (.sample key value) := by
  obtain ⟨name, labels⟩ := key
  obtain ⟨isName, names⟩ := sound
  dsimp only at isName names
  have split : (ExpositionLine.sample (name, labels) value).text.toList =
      name.toList ++ ((formatLabels labels).toList ++ ' ' :: value.toList) := by
    simp [ExpositionLine.text]
  obtain ⟨stop, rest, follows, stops⟩ : ∃ stop rest,
      (formatLabels labels).toList ++ ' ' :: value.toList = stop :: rest ∧
        isNamePart stop = false := by
    cases labels with
    | nil => exact ⟨' ', value.toList, rfl, by decide⟩
    | cons label others =>
        rw [formatLabels_characters (by simp), List.cons_append]
        exact ⟨'{', _, rfl, by decide⟩
  have read : metricName? (ExpositionLine.sample (name, labels) value).text.toList =
      some (name, (formatLabels labels).toList ++ ' ' :: value.toList) := by
    rw [split, follows]
    exact metricName?_append isName stops
  obtain ⟨number, denotes⟩ := Option.isSome_iff_exists.mp isNumber
  simp only [sample?]
  rw [read]
  simp [labelSet?_formatLabels names, afterBlank?, denotes]

theorem comment?_characters {name : String} (isName : IsMetricName name)
    (line : String → String → ExpositionLine) {allows : String → Bool} {text : String}
    (allowed : allows text = true) :
    comment? line allows (name.toList ++ ' ' :: text.toList) = some (line name text) := by
  have read : metricName? (name.toList ++ ' ' :: text.toList) = some (name, ' ' :: text.toList) :=
    metricName?_append isName (by decide)
  simp only [comment?]
  rw [read]
  simp [afterBlank?, allowed]

/-- A sample line starts with a name, so that it is neither blank nor a comment. -/
theorem head?_sample {key : MetricKey} (sound : SoundKey key) (value : String) :
    ∃ first rest, (ExpositionLine.sample key value).text.toList = first :: rest ∧ first ≠ '#' := by
  obtain ⟨⟨⟨first, isFirst, starts⟩, _⟩, _⟩ := sound
  obtain ⟨others, split⟩ := List.head?_eq_some_iff.mp isFirst
  refine ⟨first, others ++ (formatLabels key.2).toList ++ ' ' :: value.toList, ?_, ?_⟩
  · simp [ExpositionLine.text, split]
  · rintro rfl
    exact absurd starts (by decide)

/-- A line is read back as it was written. -/
theorem parseLine?_text {line : ExpositionLine} (sound : line.Sound) :
    parseLine? line.text = some line := by
  cases line with
  | help name text =>
      have split : (ExpositionLine.help name text).text.toList =
          "# HELP ".toList ++ (name.toList ++ ' ' :: text.toList) := by
        simp [ExpositionLine.text]
      simp only [parseLine?]
      rw [split]
      exact comment?_characters sound.1 .help rfl
  | type name kind =>
      have split : (ExpositionLine.type name kind).text.toList =
          "# TYPE ".toList ++ (name.toList ++ ' ' :: kind.toList) := by
        simp [ExpositionLine.text]
      simp only [parseLine?]
      rw [split]
      exact comment?_characters sound.1 .type (List.contains_iff_mem.mpr sound.2)
  | sample key value =>
      obtain ⟨first, rest, split, noComment⟩ := head?_sample sound.1 value
      have read := sample?_characters sound.1 sound.2.2
      simp only [parseLine?]
      rw [split] at read ⊢
      have keyword : ∀ others : List Char,
          ('#' :: others).isPrefixOf (first :: rest) = false := by
        intro others
        simp [List.isPrefixOf, noComment.symm]
      rw [if_neg (by simp)]
      refine (if_neg ?_).trans ((if_neg ?_).trans read)
      · exact Bool.eq_false_iff.mp (keyword _)
      · exact Bool.eq_false_iff.mp (keyword _)
  | blank => rfl

theorem IsMetricName.newline_not_mem {name : String} (isName : IsMetricName name) :
    '\n' ∉ name.toList := by
  intro member
  exact absurd (List.all_eq_true.mp isName.2 _ member) (by decide)

theorem IsLabelName.newline_not_mem {name : String} (isName : IsLabelName name) :
    '\n' ∉ name.toList := by
  intro member
  exact absurd (List.all_eq_true.mp isName.2 _ member) (by decide)

theorem newline_not_mem_formatLabels {labels : LabelSet}
    (names : ∀ label ∈ labels, IsLabelName label.1) : '\n' ∉ (formatLabels labels).toList := by
  have each : ∀ label ∈ labels, '\n' ∉ labelCharacters label := by
    intro label member
    have name := (names label member).newline_not_mem
    have value := newline_not_mem_escapeLabel label.2
    rw [escapeLabel_characters] at value
    simp only [labelCharacters, List.mem_append, List.mem_cons, List.not_mem_nil]
    rintro (inName | sign | quote | (inValue | quote | none))
    · exact name inName
    · exact absurd sign (by decide)
    · exact absurd quote (by decide)
    · exact value inValue
    · exact absurd quote (by decide)
    · exact none
  cases labels with
  | nil => decide
  | cons label others =>
      rw [formatLabels_characters (by simp)]
      intro member
      rcases List.mem_cons.mp member with brace | member
      · exact absurd brace (by decide)
      · rcases List.mem_append.mp member with inLabels | brace
        · rcases mem_labelsCharacters inLabels with comma | ⟨label, isLabel, inLabel⟩
          · exact absurd comma (by decide)
          · exact each label isLabel inLabel
        · exact absurd (List.mem_singleton.mp brace) (by decide)

theorem newline_not_mem_text {line : ExpositionLine} (sound : line.Sound) :
    '\n' ∉ line.text.toList := by
  cases line with
  | help name text =>
      have inName := sound.1.newline_not_mem
      have inText := sound.2
      simp [ExpositionLine.text, inName, inText]
  | type name kind =>
      have inName := sound.1.newline_not_mem
      have plain : ∀ kind ∈ metricTypes, '\n' ∉ kind.toList := by decide
      have inKind := plain kind sound.2
      simp [ExpositionLine.text, inName, inKind]
  | sample key value =>
      have inName := sound.1.1.newline_not_mem
      have inLabels := newline_not_mem_formatLabels sound.1.2
      have inValue := sound.2.1
      simp [ExpositionLine.text, inName, inLabels, inValue]
  | blank => decide

/-- Lines without line ends are told apart and read back. -/
theorem parseExposition_join {lines : List ExpositionLine} (nonempty : lines ≠ [])
    (sound : ∀ line ∈ lines, line.Sound) :
    parseExposition (Text.join '\n' (lines.map ExpositionLine.text)) = lines.map some := by
  have without : ∀ part ∈ lines.map ExpositionLine.text, '\n' ∉ part.toList := by
    intro part member
    obtain ⟨line, isLine, rfl⟩ := List.mem_map.mp member
    exact newline_not_mem_text (sound line isLine)
  rw [parseExposition, Text.splitOn_join (by simpa using nonempty) without, List.map_map]
  exact List.map_congr_left fun line member => parseLine?_text (sound line member)

/-! ## Registries -/

namespace MetricsRegistry

theorem metadata_sound : ∀ row ∈ metadata, row.2.1 ∈ metricTypes ∧ '\n' ∉ row.2.2.toList := by
  decide

theorem describe_sound {name : String} (isName : IsMetricName name) :
    (describe name).1 ∈ metricTypes ∧ '\n' ∉ (describe name).2.toList := by
  unfold describe
  cases found : metadata.lookup name with
  | none =>
      have kind : "gauge" ∈ metricTypes := by decide
      exact ⟨kind, isName.newline_not_mem⟩
  | some description =>
      obtain ⟨before, after, split, _⟩ := List.lookup_eq_some_iff.mp found
      exact metadata_sound (name, description) (by rw [split]; simp)

variable {registry : MetricsRegistry}

theorem mem_metricNames {name : String} :
    name ∈ registry.metricNames ↔ ∃ key ∈ registry.series, key.1 = name := by
  rw [metricNames, (sortBy_perm id _).mem_iff, List.mem_dedup, List.mem_map]

theorem nodup_metricNames : registry.metricNames.Nodup :=
  (sortBy_perm id _).nodup_iff.mpr (List.nodup_dedup _)

theorem map_sortedValues_perm : (registry.sortedValues.map Prod.fst).Perm registry.series :=
  (sortBy_perm _ _).map Prod.fst

theorem renderLines_sound (sound : ∀ key ∈ registry.series, SoundKey key) :
    ∀ line ∈ registry.renderLines, line.Sound := by
  intro line member
  rcases List.mem_append.mp member with inMetrics | isBlank
  · obtain ⟨name, isMetric, inMetric⟩ := List.mem_flatMap.mp inMetrics
    obtain ⟨key, stored, rfl⟩ := mem_metricNames.mp isMetric
    have isName := (sound key stored).1
    rcases List.mem_append.mp inMetric with isComment | isSample
    · rcases List.mem_cons.mp isComment with rfl | isType
      · exact ⟨isName, (describe_sound isName).2⟩
      · rw [List.mem_singleton.mp isType]
        exact ⟨isName, (describe_sound isName).1⟩
    · obtain ⟨row, isRow, rfl⟩ := List.mem_map.mp isSample
      have rowStored : row.1 ∈ registry.series :=
        map_sortedValues_perm.mem_iff.mp (List.mem_map_of_mem (List.mem_of_mem_filter isRow))
      exact ⟨sound row.1 rowStored, fun newline => (Decimal.formatGeneral_plain newline).2 rfl,
        Decimal.denoted?_formatGeneral_isSome row.2⟩
  · rw [List.mem_singleton.mp isBlank]
    trivial

theorem parseExposition_renderPrometheus (sound : ∀ key ∈ registry.series, SoundKey key) :
    parseExposition registry.renderPrometheus = registry.renderLines.map some :=
  parseExposition_join (by simp [renderLines]) (renderLines_sound sound)

end MetricsRegistry

/-- The series that a line is a sample of. -/
def ExpositionLine.key? : ExpositionLine → Option MetricKey
  | sample key _ => some key
  | help _ _ | type _ _ | blank => none

/-- The lines of one metric, as a scraper reads them. -/
structure MetricBlock where
  name : String
  help : String
  kind : String
  samples : List (LabelSet × String)

def MetricBlock.lines (block : MetricBlock) : List ExpositionLine :=
  [.help block.name block.help, .type block.name block.kind] ++
    block.samples.map fun sample => .sample (block.name, sample.1) sample.2

/-- What a scraper reads are the stored series, each once, in one block for each metric. -/
structure Unambiguous (registry : MetricsRegistry) : Prop where
  samples : ((parseExposition registry.renderPrometheus).filterMap
    fun line => line.bind ExpositionLine.key?).Perm registry.series
  once : ((parseExposition registry.renderPrometheus).filterMap
    fun line => line.bind ExpositionLine.key?).Nodup
  blocks : ∃ blocks : List MetricBlock, (blocks.map (·.name)).Nodup ∧
    parseExposition registry.renderPrometheus =
      (blocks.flatMap MetricBlock.lines ++ [ExpositionLine.blank]).map some

theorem flatMap_filter_perm {Item Group : Type} [DecidableEq Group] {items : List Item}
    {groups : List Group} (group : Item → Group) (nodup : items.Nodup) (distinct : groups.Nodup)
    (covered : ∀ item ∈ items, group item ∈ groups) :
    (groups.flatMap fun name => items.filter fun item => group item = name).Perm items := by
  rw [List.perm_ext_iff_of_nodup ?_ nodup]
  · intro item
    simp only [List.mem_flatMap, List.mem_filter, decide_eq_true_eq]
    constructor
    · rintro ⟨_, _, member, _⟩
      exact member
    · intro member
      exact ⟨group item, covered item member, member, rfl⟩
  · refine List.nodup_flatMap.mpr ⟨fun name _ => nodup.filter _, distinct.imp ?_⟩
    intro name other different item inFirst inOther
    simp only [List.mem_filter, decide_eq_true_eq] at inFirst inOther
    exact different (inFirst.2.symm.trans inOther.2)

namespace MetricsRegistry

variable {registry : MetricsRegistry}

theorem nodup_series (registry : MetricsRegistry) : registry.series.Nodup :=
  registry.values.unique

theorem keys_renderMetric (name : String) :
    (registry.renderMetric name).filterMap ExpositionLine.key? =
      (registry.sortedValues.map Prod.fst).filter fun key => key.1 = name := by
  rw [renderMetric, List.filterMap_append, List.filterMap_map, List.filter_map]
  exact congrFun List.filterMap_eq_map _

theorem keys_renderLines :
    (registry.renderLines.filterMap ExpositionLine.key?).Perm registry.series := by
  have nodup : (registry.sortedValues.map Prod.fst).Nodup :=
    map_sortedValues_perm.nodup_iff.mpr registry.nodup_series
  have keys : registry.renderLines.filterMap ExpositionLine.key? =
      registry.metricNames.flatMap fun name =>
        (registry.sortedValues.map Prod.fst).filter fun key => key.1 = name := by
    have blank : [ExpositionLine.blank].filterMap ExpositionLine.key? = [] := rfl
    rw [renderLines, List.filterMap_append, List.filterMap_flatMap, blank, List.append_nil]
    congr 1
    funext name
    exact keys_renderMetric name
  rw [keys]
  refine (flatMap_filter_perm Prod.fst nodup nodup_metricNames ?_).trans map_sortedValues_perm
  intro key member
  exact mem_metricNames.mpr ⟨key, map_sortedValues_perm.mem_iff.mp member, rfl⟩

def block (registry : MetricsRegistry) (name : String) : MetricBlock where
  name := name
  help := (describe name).2
  kind := (describe name).1
  samples := (registry.sortedValues.filter fun row => row.1.1 = name).map fun row =>
    (row.1.2, Decimal.formatGeneral row.2)

theorem block_lines (name : String) : (registry.block name).lines = registry.renderMetric name := by
  rw [MetricBlock.lines, block, renderMetric, List.map_map]
  congr 1
  refine List.map_congr_left fun row member => ?_
  have isMetric : row.1.1 = name := by simpa using List.of_mem_filter member
  simp [← isMetric]

theorem map_name_block (names : List String) :
    (names.map registry.block).map (·.name) = names := by
  rw [List.map_map]
  exact List.map_id names

theorem lines_block (names : List String) :
    (names.map registry.block).flatMap MetricBlock.lines = names.flatMap registry.renderMetric := by
  rw [List.flatMap_map]
  exact congrArg names.flatMap (funext fun name => block_lines name)

end MetricsRegistry

/-! ## Reached registries -/

theorem IsMetricName.append {name suffix : String} (isName : IsMetricName name)
    (parts : suffix.toList.all isNamePart) : IsMetricName (name ++ suffix) := by
  obtain ⟨⟨first, isFirst, starts⟩, nameParts⟩ := isName
  refine ⟨⟨first, ?_, starts⟩, ?_⟩
  · obtain ⟨others, split⟩ := List.head?_eq_some_iff.mp isFirst
    rw [String.toList_append, split]
    rfl
  · rw [String.toList_append, List.all_append, nameParts, parts]
    rfl

theorem soundKey_labelSet {name : String} {labels : List (String × String)}
    (isName : IsMetricName name) (labelNames : ∀ label ∈ labels, IsLabelName label.1) :
    SoundKey (name, MetricsRegistry.labelSet labels) :=
  ⟨isName, fun label member => labelNames label ((sortBy_perm _ _).mem_iff.mp member)⟩

theorem MetricCall.WellNamed.sound {call : MetricCall} {registry : MetricsRegistry}
    (wellNamed : call.WellNamed) (sound : ∀ key ∈ registry.series, SoundKey key) :
    ∀ key ∈ (call.apply registry).series, SoundKey key := by
  intro key member
  cases call with
  | increment name labels amount =>
      rcases (registry.mem_series_increment name labels amount key).mp member with rfl | earlier
      · exact soundKey_labelSet wellNamed.1 wellNamed.2
      · exact sound key earlier
  | setGauge name value labels =>
      rcases (registry.mem_series_set _ key value).mp member with rfl | earlier
      · exact soundKey_labelSet wellNamed.1 wellNamed.2
      · exact sound key earlier
  | observeDuration name seconds labels =>
      have counts : IsMetricName (name ++ "_count") := wellNamed.1.append (by decide)
      have sums : IsMetricName (name ++ "_sum") := wellNamed.1.append (by decide)
      rcases (MetricsRegistry.mem_series_increment _ _ labels seconds key).mp member with rfl | earlier
      · exact soundKey_labelSet sums wellNamed.2
      · rcases (MetricsRegistry.mem_series_increment _ _ labels 1 key).mp earlier with rfl | first
        · exact soundKey_labelSet counts wellNamed.2
        · exact sound key first

theorem registryOf_sound {calls : List MetricCall} (wellNamed : ∀ call ∈ calls, call.WellNamed) :
    ∀ key ∈ (registryOf calls).series, SoundKey key := by
  induction calls using List.reverseRecOn with
  | nil =>
      intro key member
      cases member
  | append_singleton earlier call ih =>
      rw [registryOf, List.foldl_append]
      exact (wellNamed call (by simp)).sound
        (ih fun other member => wellNamed other (List.mem_append_left _ member))

/-- Whatever the label values, the exposition of a reached registry is unambiguous. -/
theorem exposition_unambiguous (calls : List MetricCall)
    (wellNamed : ∀ call ∈ calls, call.WellNamed) : Unambiguous (registryOf calls) := by
  have parsed := MetricsRegistry.parseExposition_renderPrometheus (registryOf_sound wellNamed)
  generalize registryOf calls = registry at parsed ⊢
  have keys : ((parseExposition registry.renderPrometheus).filterMap
      fun line => line.bind ExpositionLine.key?).Perm registry.series := by
    rw [parsed, List.filterMap_map]
    exact MetricsRegistry.keys_renderLines
  constructor
  · exact keys
  · exact keys.nodup_iff.mpr registry.nodup_series
  · refine ⟨registry.metricNames.map registry.block, ?_, ?_⟩
    · rw [MetricsRegistry.map_name_block]
      exact MetricsRegistry.nodup_metricNames
    · rw [parsed, MetricsRegistry.renderLines, MetricsRegistry.lines_block]

/-- Values that end their quotes, their line and their braces. -/
theorem exposition_unambiguous_hostile :
    let calls : List MetricCall :=
      [.increment "jobs" [("status", "\"\x7d 1\njobs")] 1,
        .increment "jobs" [("status", "\\\"\\n,")] 1]
    (registryOf calls).renderPrometheus =
        "# HELP jobs jobs\n# TYPE jobs gauge\n" ++
          "jobs\x7bstatus=\"\\\"\x7d 1\\njobs\"\x7d 1\n" ++
          "jobs\x7bstatus=\"\\\\\\\"\\\\n,\"\x7d 1\n" ∧
      Unambiguous (registryOf calls) := by
  intro calls
  refine ⟨by decide +kernel, exposition_unambiguous calls ?_⟩
  have named : IsMetricName "jobs" := by decide
  have labelled : IsLabelName "status" := by decide
  intro call member
  rcases List.mem_cons.mp member with rfl | member
  · exact ⟨named, by simpa using labelled⟩
  · rw [List.mem_singleton.mp member]
    exact ⟨named, by simpa using labelled⟩

end EvaluationService
