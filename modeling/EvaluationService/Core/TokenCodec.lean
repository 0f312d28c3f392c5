import EvaluationService.Core.AuthProperties
import EvaluationService.Foundation.JsonRoundTrip

/-!
Tokens with the decoder that the service runs: `json.loads` on bytes guesses the encoding of a
document from its first bytes, decodes it and reads the text. What a token says does not depend
on how it was spelled: a payload that was signed is validated as the payload itself.
-/

set_option autoImplicit false

namespace EvaluationService

open Foundation

/-! ## Documents -/

inductive Encoding where
  | utf8
  | utf8Signed
  | utf16
  | utf16Big
  | utf16Little
  | utf32
  | utf32Big
  | utf32Little
deriving DecidableEq, Repr

/-- `json.detect_encoding` -/
def detectEncoding (document : Bytes) : Encoding :=
  if [0, 0, 0xFE, 0xFF].isPrefixOf document || [0xFF, 0xFE, 0, 0].isPrefixOf document then .utf32
  else if [0xFE, 0xFF].isPrefixOf document || [0xFF, 0xFE].isPrefixOf document then .utf16
  else if [0xEF, 0xBB, 0xBF].isPrefixOf document then .utf8Signed
  else
    match document with
    | [first, second] =>
        if first = 0 then .utf16Big else if second = 0 then .utf16Little else .utf8
    | first :: second :: third :: fourth :: _ =>
        if first = 0 then (if second ≠ 0 then .utf16Big else .utf32Big)
        else if second = 0 then (if third ≠ 0 ∨ fourth ≠ 0 then .utf16Little else .utf32Little)
        else .utf8
    | _ => .utf8

/-- `document.decode("utf-8", "surrogatepass")`, where no surrogate is encoded. -/
def decodeUtf8 (document : Bytes) : Except Exn String :=
  match String.fromUTF8? document.toByteArray with
  | some text => .ok text
  | none => .error (.other "UnicodeDecodeError")

/-- Where the recursion of the interpreter ends: the values that `json.dumps` and the texts that
`json.loads` gives up on. How deep it goes is up to the interpreter and to what it is called
from; a value that is nested within the limit is not too deep for either. -/
structure RecursionGuard where
  limit : Nat
  dumpsGivesUp : Json → Bool
  loadsGivesUp : String → Bool
  dumps_within : ∀ {value : Json}, value.nesting ≤ limit → dumpsGivesUp value = false
  loads_within : ∀ {value : Json}, value.Readable → value.nesting ≤ limit →
    loadsGivesUp value.dumps = false

/-- `encode_demo_jwt` where the payload may be nested too deep to be written. -/
def encodeNestedJwt (recursion : RecursionGuard) (mac : Mac) (payload : List (String × Json))
    (secret : String) : Except Exn String :=
  if recursion.dumpsGivesUp (.object payload) then .error .recursionError
  else encodeDemoJwt mac payload secret

section Documents

-- the decoders of the encodings that no document of the service is in
variable (recursion : RecursionGuard) (decodeOther : Encoding → Bytes → Except Exn String)

/-- `json.loads(text)`; both other errors of the decoder are instances of `ValueError`. -/
def loadsText (text : String) : Except Exn Json :=
  if recursion.loadsGivesUp text then .error .recursionError
  else
    match Json.loads? text.toList with
    | some value => .ok value
    | none => .error (.other "JSONDecodeError")

/-- `json.loads(document)` -/
def loadsDocument (document : Bytes) : Except Exn Json := do
  let encoding := detectEncoding document
  let text ← if encoding = .utf8 then decodeUtf8 document else decodeOther encoding document
  loadsText recursion text

theorem decodeUtf8_encodeUtf8 (text : String) : decodeUtf8 (encodeUtf8 text) = .ok text := by
  have bytes : (encodeUtf8 text).toByteArray = text.toByteArray := by
    have encoded := @String.toByteArray_ofList text.toList
    rw [String.ofList_toList] at encoded
    rw [encoded]
    rfl
  have valid : String.fromUTF8? (encodeUtf8 text).toByteArray = some text := by
    rw [bytes, String.fromUTF8?, dif_pos text.isValidUTF8]
    rfl
  rw [decodeUtf8, valid]

/-- A document that starts with two characters of ASCII is decoded as UTF-8. -/
theorem detectEncoding_ascii {first second : UInt8} (rest : Bytes)
    (firstPlain : first ≠ 0 ∧ first < 0x80) (secondPlain : second ≠ 0) :
    detectEncoding (first :: second :: rest) = .utf8 := by
  have noMark : ∀ mark : UInt8, 0x80 ≤ mark → (mark == first) = false := by
    intro mark high
    rw [beq_eq_false_iff_ne]
    rintro rfl
    exact absurd (UInt8.lt_of_lt_of_le firstPlain.2 high) (UInt8.lt_irrefl _)
  have noZero : ((0 : UInt8) == first) = false := by
    rw [beq_eq_false_iff_ne]
    exact firstPlain.1.symm
  unfold detectEncoding
  simp only [List.isPrefixOf, noMark 0xFE (by decide), noMark 0xFF (by decide),
    noMark 0xEF (by decide), noZero, Bool.false_and, Bool.or_false, Bool.false_eq_true, if_false]
  cases rest with
  | nil => simp only [if_neg firstPlain.1, if_neg secondPlain]
  | cons third others =>
      cases others with
      | nil => rfl
      | cons fourth _ => simp only [if_neg firstPlain.1, if_neg secondPlain]

/-- How the text of an object starts. -/
theorem dumps_object (members : List (String × Json)) :
    ∃ second rest, (Json.object members).dumps.toList = '\x7b' :: second :: rest ∧
      (second = '"' ∨ second = '\x7d') := by
  rw [Json.toList_dumps, Json.written, ← Json.joinedItems]
  cases members with
  | nil => exact ⟨'\x7d', [], rfl, .inr rfl⟩
  | cons member others =>
      rw [Json.writtenMembers_cons]
      cases others with
      | nil =>
          rw [Json.writtenMembers, Json.joinedItems_singleton, Json.writtenMember,
            Json.toList_quote]
          exact ⟨'"', _, rfl, .inl rfl⟩
      | cons next others =>
          rw [Json.writtenMembers_cons, Json.joinedItems_cons_cons, Json.writtenMember,
            Json.toList_quote]
          exact ⟨'"', _, rfl, .inl rfl⟩

theorem detectEncoding_object (members : List (String × Json)) :
    detectEncoding (encodeUtf8 (Json.object members).dumps) = .utf8 := by
  obtain ⟨second, rest, spelled, quote | brace⟩ := dumps_object members
  · have bytes : encodeUtf8 (Json.object members).dumps =
        0x7B :: 0x22 :: rest.flatMap String.utf8EncodeChar := by
      rw [encodeUtf8, spelled, quote]
      rfl
    rw [bytes]
    exact detectEncoding_ascii _ (by decide) (by decide)
  · have bytes : encodeUtf8 (Json.object members).dumps =
        0x7B :: 0x7D :: rest.flatMap String.utf8EncodeChar := by
      rw [encodeUtf8, spelled, brace]
      rfl
    rw [bytes]
    exact detectEncoding_ascii _ (by decide) (by decide)

/-- The decoder of the service undoes its encoder. -/
theorem undoes_loadsDocument {members : List (String × Json)}
    (readable : (Json.object members).Readable)
    (within : (Json.object members).nesting ≤ recursion.limit) :
    Undoes (loadsDocument recursion decodeOther) members := by
  rw [Undoes, loadsDocument, detectEncoding_object]
  dsimp only
  rw [if_pos rfl, decodeUtf8_encodeUtf8]
  change loadsText recursion (Json.object members).dumps = _
  rw [loadsText, recursion.loads_within readable within, Json.loads?_dumps readable]
  rfl

theorem readable_tokenHeader : (Json.object tokenHeader).Readable := by
  refine .object (by decide) fun member isMember => ?_
  simp only [tokenHeader, List.mem_cons, List.not_mem_nil, or_false] at isMember
  rcases isMember with rfl | rfl <;> exact .str

/-! ## Tokens -/

theorem ReadsAs.validateDemoJwt_refused {loads : Bytes → Except Exn Json} {mac : Mac}
    {settings : Settings} {now : DateTime} {header payload : List (String × Json)}
    {token first second : String} {signature message : Bytes}
    (reads : ReadsAs loads token first second header payload signature)
    (algorithm : (header.lookup "alg").bind Json.str? = some "HS256")
    (encoded : encodeAscii (Text.join '.' [first, second]) = .ok message)
    (refused : mac.verifies (encodeUtf8 settings.authDemoSecret) message signature = false) :
    EvaluationService.validateDemoJwt loads mac token settings now =
      .error (.unauthorized "Invalid token signature.") := by
  simp [EvaluationService.validateDemoJwt, reads.decodeTokenParts, algorithm, encoded, refused,
    Except.mapError]

/-- A signed payload, whatever it holds, is validated as it is, if it is not nested too deep: with
the secret that signed it the outcome is that of the checks on its claims, and with any other
whose signature differs the token is refused before a claim is looked at. -/
theorem token_carries_payload (digest : Bytes → Bytes → Bytes) (payload : List (String × Json))
    (readable : (Json.object payload).Readable)
    (within : (Json.object payload).nesting ≤ recursion.limit) (secret : String) :
    ∃ token message, encodeNestedJwt recursion (.exact digest) payload secret = .ok token ∧
      encodeAscii (signingInput payload) = .ok message ∧
      ∀ (settings : Settings) (now : DateTime),
        validateDemoJwt (loadsDocument recursion decodeOther) (.exact digest) token settings now =
          if digest (encodeUtf8 settings.authDemoSecret) message =
              digest (encodeUtf8 secret) message then validateClaims settings now payload
          else .error (.unauthorized "Invalid token signature.") := by
  -- the payload is an object, and the header is not nested deeper than one
  have headerWithin : (Json.object tokenHeader).nesting ≤ recursion.limit :=
    le_trans (Nat.succ_le_succ (Nat.zero_le _)) within
  obtain ⟨token, message, created, encoded, reads⟩ := encodeDemoJwt_readsAs (.exact digest) secret
    payload (undoes_loadsDocument recursion decodeOther readable_tokenHeader headerWithin)
    (undoes_loadsDocument recursion decodeOther readable within)
  have written : encodeNestedJwt recursion (.exact digest) payload secret = .ok token := by
    rw [encodeNestedJwt, recursion.dumps_within within]
    exact created
  refine ⟨token, message, written, encoded, fun settings now => ?_⟩
  split
  · rename_i same
    exact reads.validateDemoJwt rfl encoded (beq_iff_eq.mpr same.symm)
  · rename_i different
    have refused : (Mac.exact digest).verifies (encodeUtf8 settings.authDemoSecret) message
        ((Mac.exact digest).digest (encodeUtf8 secret) message) = false :=
      beq_eq_false_iff_ne.mpr fun same => different same.symm
    exact reads.validateDemoJwt_refused rfl encoded refused

/-- An interpreter that gives up on what is nested more than a hundred deep. -/
def shallowRecursion : RecursionGuard where
  limit := 100
  dumpsGivesUp value := 100 < value.nesting
  loadsGivesUp text := (Json.loads? text.toList).any fun value => 100 < value.nesting
  dumps_within := by
    intro value within
    exact decide_eq_false (Nat.not_lt.mpr within)
  loads_within := by
    intro value readable within
    rw [Json.loads?_dumps readable, Option.any_some]
    exact decide_eq_false (Nat.not_lt.mpr within)

/-- A signed payload whose `exp` is a boolean and whose `aud` is a list: it is valid for the
first second of 1970. -/
theorem token_carries_payload_flag :
    ∃ token, encodeNestedJwt shallowRecursion (.exact fun key _ => key)
        [("iss", .str "llm-evaluation-service"),
          ("aud", .array [.null, .str "llm-evaluation-service"]), ("exp", .bool true),
          ("tenant_id", .str "ténant"), ("sub", .str "user-1")] "local-demo-secret" = .ok token ∧
      validateDemoJwt (loadsDocument shallowRecursion fun _ _ => .error .valueError)
        (.exact fun key _ => key) token { } 0 = .ok ⟨"ténant", "user-1", []⟩ := by
  obtain ⟨token, message, created, _, validated⟩ := token_carries_payload shallowRecursion
    (fun _ _ => .error .valueError) (fun key _ => key)
    [("iss", .str "llm-evaluation-service"),
      ("aud", .array [.null, .str "llm-evaluation-service"]), ("exp", .bool true),
      ("tenant_id", .str "ténant"), ("sub", .str "user-1")]
    (.object (by decide) (by
      intro member isMember
      simp only [List.mem_cons, List.not_mem_nil, or_false] at isMember
      rcases isMember with rfl | rfl | rfl | rfl | rfl
      · exact .str
      · refine .array fun item isItem => ?_
        simp only [List.mem_cons, List.not_mem_nil, or_false] at isItem
        rcases isItem with rfl | rfl
        · exact .null
        · exact .str
      · exact .bool
      · exact .str
      · exact .str)) (by decide) "local-demo-secret"
  refine ⟨token, created, ?_⟩
  rw [validated { } 0, if_pos rfl]
  rfl

end Documents

end EvaluationService
