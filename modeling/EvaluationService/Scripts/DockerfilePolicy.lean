import EvaluationService.Foundation.Pattern
import EvaluationService.Foundation.Text

/-!
Dockerfile policy checks (`scripts/validate_dockerfile_policy.py`), as functions of the
text that `read_text` returns.
-/

set_option autoImplicit false

namespace EvaluationService.DockerfilePolicy

open Foundation

/-- `str.upper` and `str.lower`, with what is relied on of them. Case mappings neither make nor
lose white space, capitals are their own upper case, and ASCII text without capitals is its
own lower case wherever it stands. -/
structure CaseMapping where
  upperChar : Char → List Char
  lower : String → String
  upperChar_space : ∀ {character}, Text.isSpace character = true →
    upperChar character = [character]
  upperChar_word : ∀ {character}, Text.isSpace character = false →
    upperChar character ≠ [] ∧ ∀ upper ∈ upperChar character, Text.isSpace upper = false
  upperChar_capital : ∀ {character : Char}, character.isUpper = true →
    upperChar character = [character]
  lower_keeps : ∀ {part text : String},
    (∀ character ∈ part.toList, character.toNat < 128 ∧ character.isUpper = false) →
      Text.Contains part text → Text.Contains part (lower text)

def CaseMapping.upper (cases : CaseMapping) (text : String) : String :=
  String.ofList (text.toList.flatMap cases.upperChar)

/-- The lines that are complete, and the line that a backslash has left open. -/
structure Joining where
  lines : List String := []
  current : String := ""
deriving DecidableEq, Repr

/-- What a line adds to the instruction it is part of. -/
def piece (stripped : String) : String :=
  Text.strip (Text.removeSuffix "\\" stripped)

def joinLine (joining : Joining) (rawLine : String) : Joining :=
  let stripped := Text.strip rawLine
  if stripped = "" ∨ Text.startsWith "#" stripped then joining
  else
    let current :=
      if joining.current ≠ "" then joining.current ++ " " ++ piece stripped else piece stripped
    if Text.endsWith "\\" stripped then { joining with current }
    else { lines := joining.lines ++ [current], current := "" }

def Joining.finish (joining : Joining) : List String :=
  if joining.current ≠ "" then joining.lines ++ [joining.current] else joining.lines

def instructions (text : String) : List String :=
  ((Text.splitLines text).foldl joinLine {}).finish

example : instructions "# syntax\nRUN a \\\n # no\n\n  b\nUSER app \\" = ["RUN a b", "USER app"] := by
  decide

section Checks

variable (cases : CaseMapping)

def firstInstruction (instructions : List String) (name : String) : Option String :=
  instructions.find? fun instruction => Text.startsWith (name ++ " ") (cases.upper instruction)

def hasInstruction (instructions : List String) (name value : String) : Bool :=
  instructions.any fun instruction =>
    cases.upper instruction = cases.upper (name ++ " " ++ value)

/-- The first command decides. -/
def hasExecFormCommand (instructions : List String) (name : String) : Bool :=
  match firstInstruction cases instructions name with
  | some instruction =>
      Text.startsWith "["
        (Text.strip (String.ofList (instruction.toList.drop (name ++ " ").length)))
  | none => false

/-- `\s*RUN\s+.*pip install .*--no-cache-dir` -/
def pipInstallPattern : Pattern :=
  .many Text.isSpace :: Pattern.literal "RUN" ++
    .once Text.isSpace :: .many Text.isSpace :: Pattern.anything ::
    Pattern.literal "pip install " ++ Pattern.anything :: Pattern.literal "--no-cache-dir"

def baseImageErrors (instructions : List String) : List String :=
  match firstInstruction cases instructions "FROM" with
  | none => ["Dockerfile must define a base image with FROM."]
  | some instruction =>
      if Text.Contains ":latest" (cases.lower instruction) then
        ["Dockerfile base image must not use the latest tag."]
      else []

def errors (text : String) : List String :=
  let instructions := instructions text
  baseImageErrors cases instructions ++
    (if hasInstruction cases instructions "USER" "app" then []
      else ["Dockerfile must switch to the non-root app user."]) ++
    (if Pattern.search pipInstallPattern text then []
      else ["Dockerfile pip installs must use --no-cache-dir."]) ++
    if hasExecFormCommand cases instructions "CMD" then []
      else ["Dockerfile must use exec-form CMD."]

/-- The lines that are printed: the errors before the exit with status 1, or the success. -/
def main (text : String) : Except (List String) String :=
  let errors := errors cases text
  if errors ≠ [] then .error errors else .ok "Dockerfile policy checks passed"

/-- What it takes to pass: one instruction each, and one place in the text. -/
theorem errors_eq_nil_iff {text : String} :
    errors cases text = [] ↔
      (∃ instruction, firstInstruction cases (instructions text) "FROM" = some instruction ∧
        ¬Text.Contains ":latest" (cases.lower instruction)) ∧
      hasInstruction cases (instructions text) "USER" "app" = true ∧
      Pattern.search pipInstallPattern text = true ∧
      hasExecFormCommand cases (instructions text) "CMD" = true := by
  have image : baseImageErrors cases (instructions text) = [] ↔
      ∃ instruction, firstInstruction cases (instructions text) "FROM" = some instruction ∧
        ¬Text.Contains ":latest" (cases.lower instruction) := by
    rw [baseImageErrors]
    cases firstInstruction cases (instructions text) "FROM" with
    | none => simp
    | some instruction => simp
  rw [errors, List.append_eq_nil_iff, List.append_eq_nil_iff, List.append_eq_nil_iff, image,
    and_assoc, and_assoc]
  simp

theorem main_ok_iff {text printed : String} :
    main cases text = .ok printed ↔
      errors cases text = [] ∧ printed = "Dockerfile policy checks passed" := by
  rw [main]
  by_cases none : errors cases text = []
  · simp [none, eq_comm]
  · simp [none]

end Checks

end EvaluationService.DockerfilePolicy
