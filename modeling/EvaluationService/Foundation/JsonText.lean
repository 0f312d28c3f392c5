import EvaluationService.Foundation.Json
import Mathlib.Data.List.Basic

/-!
JSON text as `json.dumps` writes it with any separators and as `json.loads` reads it. A string
with a lone surrogate, which Python can hold, is not read here. How deep a value is nested is
measured, as the interpreter gives up on a value that is nested too deep.
-/

set_option autoImplicit false

namespace Foundation

namespace Json

/-! ## Writing -/

/-- What stands after each comma and after each colon. -/
structure Separators where
  afterComma : List Char
  afterColon : List Char
  commaBlank : ∀ character ∈ afterComma, isBlank character = true
  colonBlank : ∀ character ∈ afterColon, isBlank character = true

/-- `separators=(",", ":")` -/
def Separators.compact : Separators where
  afterComma := []
  afterColon := []
  commaBlank := by simp
  colonBlank := by simp

/-- The separators of `json.dumps` where none are given. -/
def Separators.spaced : Separators where
  afterComma := [' ']
  afterColon := [' ']
  commaBlank := by simp [isBlank]
  colonBlank := by simp [isBlank]

mutual

def written (separators : Separators) : Json → List Char
  | null => "null".toList
  | bool true => "true".toList
  | bool false => "false".toList
  | int value => (toString value).toList
  | float literal => literal.toList
  | str value => (quote value).toList
  | array items =>
      '[' :: (',' :: separators.afterComma).intercalate (writtenItems separators items) ++ [']']
  | object members =>
      '\x7b' :: (',' :: separators.afterComma).intercalate (writtenMembers separators members) ++
        ['\x7d']

def writtenItems (separators : Separators) : List Json → List (List Char)
  | [] => []
  | item :: rest => written separators item :: writtenItems separators rest

def writtenMembers (separators : Separators) : List (String × Json) → List (List Char)
  | [] => []
  | (key, value) :: rest =>
      ((quote key).toList ++ ':' :: separators.afterColon ++ written separators value) ::
        writtenMembers separators rest

end

/-! ## Nesting -/

mutual

/-- How many arrays and objects stand inside one another. -/
def nesting : Json → Nat
  | null | bool _ | int _ | float _ | str _ => 0
  | array items => nestingItems items + 1
  | object members => nestingMembers members + 1

def nestingItems : List Json → Nat
  | [] => 0
  | item :: rest => max (nesting item) (nestingItems rest)

def nestingMembers : List (String × Json) → Nat
  | [] => 0
  | (_, value) :: rest => max (nesting value) (nestingMembers rest)

end

example : nesting (object [("a", array [null, array []]), ("b", object [])]) = 3 := by decide

/-! ## Reading a string -/

def hexValue? (digit : Char) : Option Nat :=
  if digit.isDigit then some (digit.toNat - 48)
  else if 97 ≤ digit.toNat ∧ digit.toNat ≤ 102 then some (digit.toNat - 87)
  else if 65 ≤ digit.toNat ∧ digit.toNat ≤ 70 then some (digit.toNat - 55)
  else none

/-- The code unit of the four digits after `\u`. -/
def readUnit : List Char → Option (Nat × List Char)
  | first :: second :: third :: fourth :: rest => do
      let high ← hexValue? first
      let upper ← hexValue? second
      let lower ← hexValue? third
      let low ← hexValue? fourth
      return (high * 4096 + upper * 256 + lower * 16 + low, rest)
  | _ => none

def isHighSurrogate (unit : Nat) : Bool := 0xD800 ≤ unit && unit ≤ 0xDBFF

def isLowSurrogate (unit : Nat) : Bool := 0xDC00 ≤ unit && unit ≤ 0xDFFF

/-- What follows `\u`: one unit, or the two of a surrogate pair. -/
def readUnicode (text : List Char) : Option (Char × List Char) := do
  let (unit, rest) ← readUnit text
  if isHighSurrogate unit then
    if rest.take 2 ≠ ['\\', 'u'] then none
    else
      let (low, after) ← readUnit (rest.drop 2)
      if isLowSurrogate low then
        some (Char.ofNat (0x10000 + (unit - 0xD800) * 0x400 + (low - 0xDC00)), after)
      else none
  else if isLowSurrogate unit then none
  else some (Char.ofNat unit, rest)

def unescaped? (letter : Char) : Option Char :=
  [('"', '"'), ('\\', '\\'), ('/', '/'), ('b', Char.ofNat 8), ('f', Char.ofNat 12), ('n', '\n'),
    ('r', '\r'), ('t', '\t')].lookup letter

/-- One character of a string, from where its text starts; a control character is refused. -/
def readCharacter : List Char → Option (Char × List Char)
  | [] => none
  | first :: rest =>
      if first = '\\' then
        match rest with
        | [] => none
        | letter :: after =>
            if letter = 'u' then readUnicode after
            else (unescaped? letter).map fun character => (character, after)
      else if first.toNat < 0x20 then none
      else some (first, rest)

/-- The characters of a string after its opening quote. -/
def readString : Nat → List Char → Option (List Char × List Char)
  | 0, _ => none
  | fuel + 1, text =>
      if text.head? = some '"' then some ([], text.drop 1)
      else do
        let (character, rest) ← readCharacter text
        let (characters, after) ← readString fuel rest
        return (character :: characters, after)

/-! ## Reading a number -/

/-- `sys.int_info.default_max_str_digits` -/
def maxStrDigits : Nat := 4300

/-- `-?(0|[1-9][0-9]*)` -/
def readInteger (text : List Char) : Option (List Char × List Char) :=
  let sign := if text.head? = some '-' then ['-'] else []
  let unsigned := text.drop sign.length
  let digits := unsigned.takeWhile Char.isDigit
  if digits = [] then none
  else if digits.head? = some '0' then some (sign ++ ['0'], unsigned.drop 1)
  else some (sign ++ digits, unsigned.dropWhile Char.isDigit)

/-- `(\.[0-9]+)?` -/
def readFraction (text : List Char) : List Char × List Char :=
  let digits := (text.drop 1).takeWhile Char.isDigit
  if text.head? = some '.' ∧ digits ≠ [] then
    ('.' :: digits, (text.drop 1).dropWhile Char.isDigit)
  else ([], text)

/-- `([eE][-+]?[0-9]+)?` -/
def readExponent : List Char → List Char × List Char
  | [] => ([], [])
  | letter :: rest =>
      let sign := if rest.head? = some '-' ∨ rest.head? = some '+' then rest.take 1 else []
      let digits := (rest.drop sign.length).takeWhile Char.isDigit
      if (letter = 'e' ∨ letter = 'E') ∧ digits ≠ [] then
        (letter :: sign ++ digits, (rest.drop sign.length).dropWhile Char.isDigit)
      else ([], letter :: rest)

/-- `int(literal)`, which refuses a literal with too many digits. -/
def intOf? (literal : List Char) : Option Int :=
  let digits := if literal.head? = some '-' then literal.drop 1 else literal
  if digits.length ≤ maxStrDigits then
    let natural : Int := Nat.ofDigitChars 10 digits 0
    some (if literal.head? = some '-' then -natural else natural)
  else none

def readNumber (text : List Char) : Option (Json × List Char) := do
  let (integer, rest) ← readInteger text
  let (fraction, rest) := readFraction rest
  let (exponent, rest) := readExponent rest
  if fraction = [] ∧ exponent = [] then (intOf? integer).map fun value => (int value, rest)
  else some (float (String.ofList (integer ++ fraction ++ exponent)), rest)

/-! ## Reading a value -/

def constants : List (List Char × Json) :=
  [("null".toList, null), ("true".toList, bool true), ("false".toList, bool false),
    ("NaN".toList, float "NaN"), ("Infinity".toList, float "Infinity"),
    ("-Infinity".toList, float "-Infinity")]

def readConstant (text : List Char) : Option (Json × List Char) :=
  (constants.find? fun constant => constant.1.isPrefixOf text).map fun constant =>
    (constant.2, text.drop constant.1.length)

def putMember (members : List (String × Json)) (pair : String × Json) : List (String × Json) :=
  if pair.1 ∈ members.map Prod.fst then
    members.map fun member => if member.1 = pair.1 then pair else member
  else members ++ [pair]

/-- `dict(pairs)`: a key keeps its first place and takes its last value. -/
def dictOf (pairs : List (String × Json)) : List (String × Json) :=
  pairs.foldl putMember []

def skipBlanks (text : List Char) : List Char := text.dropWhile isBlank

mutual

/-- `scan_once`: the value at the start of a text, and what follows it. -/
def readValue : Nat → List Char → Option (Json × List Char)
  | 0, _ => none
  | fuel + 1, text =>
      if text.head? = some '"' then
        (readString fuel (text.drop 1)).map fun (characters, rest) =>
          (str (String.ofList characters), rest)
      else if text.head? = some '[' then
        let inside := skipBlanks (text.drop 1)
        if inside.head? = some ']' then some (array [], inside.drop 1)
        else (readItems fuel inside).map fun (items, rest) => (array items, rest)
      else if text.head? = some '\x7b' then
        let inside := skipBlanks (text.drop 1)
        if inside.head? = some '\x7d' then some (object [], inside.drop 1)
        else (readMembers fuel inside).map fun (pairs, rest) => (object (dictOf pairs), rest)
      else (readConstant text).or (readNumber text)

/-- The items of an array from the first one to its closing bracket. -/
def readItems : Nat → List Char → Option (List Json × List Char)
  | 0, _ => none
  | fuel + 1, text => do
      let (item, rest) ← readValue fuel text
      let rest := skipBlanks rest
      if rest.head? = some ']' then return ([item], rest.drop 1)
      else if rest.head? = some ',' then
        let (items, after) ← readItems fuel (skipBlanks (rest.drop 1))
        return (item :: items, after)
      else none

/-- The members of an object from the first one to its closing brace. -/
def readMembers : Nat → List Char → Option (List (String × Json) × List Char)
  | 0, _ => none
  | fuel + 1, text =>
      if text.head? ≠ some '"' then none
      else do
        let (key, rest) ← readString fuel (text.drop 1)
        let rest := skipBlanks rest
        if rest.head? ≠ some ':' then none
        else
          let (value, rest) ← readValue fuel (skipBlanks (rest.drop 1))
          let rest := skipBlanks rest
          if rest.head? = some '\x7d' then return ([(String.ofList key, value)], rest.drop 1)
          else if rest.head? = some ',' then
            let (members, after) ← readMembers fuel (skipBlanks (rest.drop 1))
            return ((String.ofList key, value) :: members, after)
          else none

end

/-- `json.loads(text)`; no value takes more steps than its text has characters. -/
def loads? (text : List Char) : Option Json := do
  let (value, rest) ← readValue text.length (skipBlanks text)
  if skipBlanks rest = [] then some value else none

end Json

end Foundation
