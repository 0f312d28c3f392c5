import Mathlib.Algebra.Group.Nat.Defs
import EvaluationService.Core.Logging
import EvaluationService.Foundation.JsonRoundTrip
import EvaluationService.Foundation.Text

/-!
The log as text. `JsonFormatter` writes each payload with `json.dumps`, the handler that
`configure_logging` installs ends each text with a newline, and a reader splits the stream into
lines and decodes each one. Every field value is text, a flag or a number, so that the `default`
of the formatter is never asked.
-/

set_option autoImplicit false

namespace EvaluationService

open Foundation

/-- `str(uuid)` -/
def uuidText (value : UUID) : String :=
  let digits := (List.range 32).map fun place => Json.hexDigit (value.toNat / 16 ^ (31 - place) % 16)
  let groups := [(0, 8), (8, 4), (12, 4), (16, 4), (20, 12)].map fun (start, count) =>
    String.ofList ((digits.drop start).take count)
  Text.join '-' groups

example : uuidText 0x00112233445566778899aabbccddeeff = "00112233-4455-6677-8899-aabbccddeeff" := by
  decide

namespace FieldValue

/-- A field value as `json.dumps` is given it. -/
def json (repr : Exn → String) : FieldValue → Json
  | text value => .str value
  | uuid value => .str (uuidText value)
  | flag value => .bool value
  | number value => .int value
  | error value => .str (repr value)

/-- The values of the fields that the formatter keeps. -/
def IsText : FieldValue → Prop
  | text _ | uuid _ => True
  | flag _ | number _ | error _ => False

theorem IsText.readable {value : FieldValue} (isText : value.IsText) (repr : Exn → String) :
    (value.json repr).Readable := by
  cases value with
  | text value => exact .str
  | uuid value => exact .str
  | flag _ | number _ | error _ => exact isText.elim

end FieldValue

/-- The fields of a record that the formatter looks at are texts and identifiers. -/
def LogRecord.KeepsText (record : LogRecord) : Prop :=
  ∀ field ∈ record.extra, field.1 ∈ JsonFormatter.keptFields → field.2.IsText

def LogLevel.levelno : LogLevel → Nat
  | info => 20
  | warning => 30
  | exception => 40

namespace JsonFormatter

def members (repr : Exn → String) (payload : Fields) : List (String × Json) :=
  payload.map fun field => (field.1, field.2.json repr)

/-- `json.dumps(payload, default=str)` -/
def text (repr : Exn → String) (payload : Fields) : List Char :=
  (Json.object (members repr payload)).written .spaced

/-- What the handler writes for the payloads, in their order. -/
def stream (repr : Exn → String) (payloads : List Fields) : String :=
  String.ofList (payloads.flatMap fun payload => text repr payload ++ ['\n'])

/-- The lines of a log, decoded one by one. -/
def readStream (log : String) : List (Option Json) :=
  (Text.splitLines log).map fun line => Json.loads? line.toList

section Formatted

variable (formatException : List Exn → String) (timestamp requestId : String) (record : LogRecord)

def fixedFields : List String := ["timestamp", "level", "logger", "message", "request_id"]

/-- Each key stands once in a payload. -/
theorem nodup_keys_format :
    ((format formatException timestamp requestId record).map Prod.fst).Nodup := by
  have keys : ∀ selected : List String, (selected.filterMap fun key =>
      (record.extra.lookup key).map fun value => (key, value)).map Prod.fst =
      selected.filter fun key => (record.extra.lookup key).isSome := by
    intro selected
    induction selected with
    | nil => rfl
    | cons key others ih =>
        cases found : record.extra.lookup key with
        | none =>
            rw [List.filterMap_cons_none (by rw [found]; rfl), ih,
              List.filter_cons_of_neg (by rw [found]; decide)]
        | some value =>
            rw [List.filterMap_cons_some (by rw [found]; rfl), List.map_cons, ih,
              List.filter_cons_of_pos (by rw [found]; rfl)]
  have kept : (keptFields.filter fun key => (record.extra.lookup key).isSome).Nodup :=
    List.Nodup.filter _ (by decide)
  have others : ∀ key ∈ keptFields.filter fun key => (record.extra.lookup key).isSome,
      key ∉ fixedFields ++ ["exception"] := by
    have all : ∀ key ∈ keptFields, key ∉ fixedFields ++ ["exception"] := by decide
    exact fun key member => all key (List.mem_filter.mp member).1
  unfold format
  rw [List.map_append, keys, List.map_append]
  by_cases quiet : record.excInfo = []
  · rw [if_pos quiet]
    refine List.Nodup.append (by decide : fixedFields.Nodup) kept fun key fixed member => ?_
    exact others key member (List.mem_append_left _ fixed)
  · rw [if_neg quiet]
    refine List.Nodup.append (by decide : (fixedFields ++ ["exception"]).Nodup) kept
      fun key fixed member => others key member fixed

theorem isText_of_mem_format (keepsText : record.KeepsText) {field : String × FieldValue}
    (member : field ∈ format formatException timestamp requestId record) : field.2.IsText := by
  unfold format at member
  rcases List.mem_append.mp member with front | kept
  · rcases List.mem_append.mp front with fixed | raised
    · simp only [List.mem_cons, List.not_mem_nil, or_false] at fixed
      rcases fixed with rfl | rfl | rfl | rfl | rfl <;> trivial
    · split at raised
      · cases raised
      · obtain rfl := List.mem_singleton.mp raised
        trivial
  · obtain ⟨key, isKept, found⟩ := List.mem_filterMap.mp kept
    obtain ⟨value, looked, rfl⟩ := Option.map_eq_some_iff.mp found
    obtain ⟨before, after, split, -⟩ := List.lookup_eq_some_iff.mp looked
    exact keepsText (key, value) (by rw [split]; simp) isKept

end Formatted

/-- What makes a payload one that a reader gets back: each key once, and texts only. -/
def Wellformed (payload : Fields) : Prop :=
  (payload.map Prod.fst).Nodup ∧ ∀ field ∈ payload, field.2.IsText

theorem wellformed_format (formatException : List Exn → String) (timestamp requestId : String)
    {record : LogRecord} (keepsText : record.KeepsText) :
    Wellformed (format formatException timestamp requestId record) :=
  ⟨nodup_keys_format _ _ _ _, fun _ member => isText_of_mem_format _ _ _ _ keepsText member⟩

theorem Wellformed.readable {payload : Fields} (wellformed : Wellformed payload)
    (repr : Exn → String) : (Json.object (members repr payload)).Readable := by
  refine .object ?_ fun member isMember => ?_
  · rw [members, List.map_map]
    exact wellformed.1
  · obtain ⟨field, isField, rfl⟩ := List.mem_map.mp isMember
    exact (wellformed.2 field isField).readable repr

theorem Wellformed.printable {payload : Fields} (wellformed : Wellformed payload)
    (repr : Exn → String) : ∀ character ∈ text repr payload, Json.Printable character :=
  (wellformed.readable repr).printable (by simp [Json.Separators.OneLine, Json.Separators.spaced])

theorem isLineBreak_printable {character : Char} (printable : Json.Printable character) :
    Text.isLineBreak character = false := by
  obtain ⟨low, high⟩ := printable
  simp only [Text.isLineBreak, Bool.or_eq_false_iff, Bool.and_eq_false_iff, decide_eq_false_iff_not]
  omega

/-- A line of printable text ends at the newline after it. -/
theorem lineCharacters_printable {line : List Char}
    (printable : ∀ character ∈ line, Json.Printable character) (rest : List Char) :
    Text.lineCharacters (line ++ '\n' :: rest) = line :: Text.lineCharacters rest := by
  induction line with
  | nil =>
      rw [List.nil_append, Text.lineCharacters, if_pos (by decide)]
      rintro _ ⟨⟩
  | cons first others ih =>
      have plain := printable first List.mem_cons_self
      rw [List.cons_append, Text.lineCharacters, if_neg (by simp [isLineBreak_printable plain]),
        ih fun character member => printable character (List.mem_cons_of_mem _ member)]
      rintro _ rfl
      exact absurd plain (by decide)

theorem lineCharacters_stream (repr : Exn → String) {payloads : List Fields}
    (wellformed : ∀ payload ∈ payloads, Wellformed payload) :
    Text.lineCharacters (payloads.flatMap fun payload => text repr payload ++ ['\n']) =
      payloads.map (text repr) := by
  induction payloads with
  | nil => rfl
  | cons payload others ih =>
      have printable := (wellformed payload List.mem_cons_self).printable repr
      rw [List.flatMap_cons, List.append_assoc, List.singleton_append,
        lineCharacters_printable printable, List.map_cons,
        ih fun other member => wellformed other (List.mem_cons_of_mem _ member)]

/-- Every payload is one line of the log, and a reader gets back just the payloads. -/
theorem readStream_stream (repr : Exn → String) {payloads : List Fields}
    (wellformed : ∀ payload ∈ payloads, Wellformed payload) :
    readStream (stream repr payloads) =
      payloads.map fun payload => some (.object (members repr payload)) := by
  rw [readStream, stream, Text.splitLines, String.toList_ofList,
    lineCharacters_stream repr wellformed, List.map_map, List.map_map]
  refine List.map_congr_left fun payload member => ?_
  have read : Json.loads? ([] ++ text repr payload ++ []) = some (.object (members repr payload)) :=
    Json.loads?_written ((wellformed payload member).readable repr) (by simp) (by simp)
  rw [List.nil_append, List.append_nil] at read
  rw [Function.comp_apply, Function.comp_apply, String.toList_ofList]
  exact read

theorem stream_printable (repr : Exn → String) {payloads : List Fields}
    (wellformed : ∀ payload ∈ payloads, Wellformed payload) :
    ∀ character ∈ (stream repr payloads).toList, Json.Printable character ∨ character = '\n' := by
  intro character member
  rw [stream, String.toList_ofList] at member
  obtain ⟨payload, isPayload, inside⟩ := List.mem_flatMap.mp member
  rcases List.mem_append.mp inside with inText | newline
  · exact .inl ((wellformed payload isPayload).printable repr character inText)
  · exact .inr (List.mem_singleton.mp newline)

end JsonFormatter

end EvaluationService
