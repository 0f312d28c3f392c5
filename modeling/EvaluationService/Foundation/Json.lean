import Mathlib.Data.List.Basic

/-!
JSON values as Python holds them after `json.loads`, and the text that `json.dumps`
writes for them with compact separators.
-/

set_option autoImplicit false

namespace Foundation

/-- An object keeps the items of its `dict` in order; a float is kept as its literal. -/
inductive Json where
  | null
  | bool (value : Bool)
  | int (value : Int)
  | float (literal : String)
  | str (value : String)
  | array (items : List Json)
  | object (members : List (String × Json))

namespace Json

/-- The value of an instance of `int`; the booleans are instances of it too. -/
def int? : Json → Option Int
  | int value => some value
  | bool value => some (if value then 1 else 0)
  | _ => none

def str? : Json → Option String
  | str value => some value
  | _ => none

def hexDigit (value : Nat) : Char :=
  "0123456789abcdef".toList.getD value '0'

def unicodeEscape (unit : Nat) : String :=
  String.ofList ['\\', 'u', hexDigit (unit / 4096 % 16), hexDigit (unit / 256 % 16),
    hexDigit (unit / 16 % 16), hexDigit (unit % 16)]

/-- Everything outside printable ASCII is escaped, beyond the basic plane as two surrogates. -/
def escape (character : Char) : String :=
  let code := character.toNat
  if character = '"' then "\\\""
  else if character = '\\' then "\\\\"
  else if character = '\n' then "\\n"
  else if character = '\r' then "\\r"
  else if character = '\t' then "\\t"
  else if code = 0x0C then "\\f"
  else if code = 0x08 then "\\b"
  else if 0x20 ≤ code ∧ code ≤ 0x7E then String.singleton character
  else if code < 0x10000 then unicodeEscape code
  else unicodeEscape (0xD800 + (code - 0x10000) / 0x400) ++
    unicodeEscape (0xDC00 + (code - 0x10000) % 0x400)

def quote (text : String) : String :=
  "\"" ++ String.join (text.toList.map escape) ++ "\""

mutual

/-- `json.dumps(value, separators=(",", ":"))` -/
def dumps : Json → String
  | null => "null"
  | bool true => "true"
  | bool false => "false"
  | int value => toString value
  | float literal => literal
  | str value => quote value
  | array items => "[" ++ String.intercalate "," (dumpsItems items) ++ "]"
  | object members => "\x7b" ++ String.intercalate "," (dumpsMembers members) ++ "\x7d"

def dumpsItems : List Json → List String
  | [] => []
  | item :: rest => dumps item :: dumpsItems rest

def dumpsMembers : List (String × Json) → List String
  | [] => []
  | (key, value) :: rest => (quote key ++ ":" ++ dumps value) :: dumpsMembers rest

end

example : dumps (.object [("a", .array [.int (-1), .str "\"é\n", .bool true])]) =
    "\x7b\"a\":[-1,\"\\\"\\u00e9\\n\",true]\x7d" := by decide

/-! ## Arrays of strings as text -/

def isBlank (character : Char) : Bool :=
  character = ' ' || character = '\t' || character = '\n' || character = '\r'

/-- What may stand between the quotes of a string. -/
inductive StringText : List Char → Prop where
  | nil : StringText []
  | plain {first : Char} {rest : List Char} :
      0x20 ≤ first.toNat → first ≠ '"' → first ≠ '\\' → StringText rest →
        StringText (first :: rest)
  | escaped {letter : Char} {rest : List Char} :
      letter ∈ "\"\\/bfnrt".toList → StringText rest → StringText ('\\' :: letter :: rest)
  | unicode {digits rest : List Char} :
      digits.length = 4 → (∀ digit ∈ digits, digit ∈ "0123456789abcdefABCDEF".toList) →
        StringText rest → StringText ('\\' :: 'u' :: (digits ++ rest))

def IsStringItem (text : List Char) : Prop :=
  ∃ before inside after, text = before ++ '"' :: inside ++ '"' :: after ∧ StringText inside ∧
    (∀ character ∈ before, isBlank character = true) ∧ ∀ character ∈ after, isBlank character = true

/-- The text of an array that holds nothing but strings, or nothing. -/
def IsStringArray (text : List Char) : Prop :=
  ∃ inside, text = '[' :: inside ++ [']'] ∧
    ((∀ character ∈ inside, isBlank character = true) ∨
      ∃ items, items ≠ [] ∧ (∀ item ∈ items, IsStringItem item) ∧
        inside = [','].intercalate items)

end Json

end Foundation
