import EvaluationService.Core.AuthProperties

/-!
What escapes `get_request_context`. Everything in a token is decoded before its signature
is checked, and one `except` clause stands for all the ways in which that can fail.
-/

set_option autoImplicit false

namespace EvaluationService

open Foundation

section Exceptions

variable {loads : Bytes → Except Exn Json} {mac : Mac} {settings : Settings} {now : DateTime}
variable {TooDeep : Bytes → Prop}

/-- No exception of the code that was called leaves the function. -/
def Contained {Value : Type} (outcome : Except AuthError Value) : Prop :=
  ∀ error, outcome ≠ .error (.raised error)

theorem Contained.ok {Value : Type} (value : Value) : Contained (.ok value) := by
  simp [Contained]

theorem Contained.unauthorized {Value : Type} (message : String) :
    Contained (.error (.unauthorized message) : Except AuthError Value) := by
  simp [Contained]

theorem Contained.bind {Value Result : Type} {source : Except AuthError Value}
    {continuation : Value → Except AuthError Result} (first : Contained source)
    (rest : ∀ value, source = .ok value → Contained (continuation value)) :
    Contained (source >>= continuation) := by
  cases source with
  | error error =>
      intro raised escaped
      exact first raised (by simpa using escaped)
  | ok value => exact rest value rfl

theorem contained_requiredString (payload : List (String × Json)) (claim : String) :
    Contained (requiredString payload claim) := by
  unfold requiredString
  split
  · split
    · exact .unauthorized _
    · exact .ok _
  · exact .unauthorized _

theorem contained_requiredInt (payload : List (String × Json)) (claim : String) :
    Contained (requiredInt payload claim) := by
  unfold requiredInt
  split
  · exact .ok _
  · exact .unauthorized _

theorem contained_validateClaims (payload : List (String × Json)) :
    Contained (validateClaims settings now payload) := by
  apply Contained.bind (contained_requiredString _ _)
  intro issuer _
  dsimp only
  split
  · exact .unauthorized _
  split
  · exact .unauthorized _
  apply Contained.bind (contained_requiredInt _ _)
  intro expiry _
  split
  · exact .unauthorized _
  apply Contained.bind (contained_requiredString _ _)
  intro tenantId _
  apply Contained.bind (contained_requiredString _ _)
  intro subject _
  exact .ok _

/-- What `json.loads` raises: `RecursionError` on a document that nests too deep for the
interpreter, and on every other one that it refuses an instance of `ValueError`. -/
structure RaisesAsDocumented (loads : Bytes → Except Exn Json) (TooDeep : Bytes → Prop) : Prop where
  deep : ∀ document, TooDeep document → loads document = .error .recursionError
  refused : ∀ document error, ¬ TooDeep document → loads document = .error error →
    error.isValueError = true

/-- The decoder reaches a document that nests too deep: that of the first part, or that of the
second one after the first was accepted. -/
def ReachesDeepDocument (loads : Bytes → Except Exn Json) (TooDeep : Bytes → Prop)
    (first second : String) : Prop :=
  (∃ document, base64urlDecode first = .ok document ∧ TooDeep document) ∨
    ∃ accepted value document, base64urlDecode first = .ok accepted ∧ loads accepted = .ok value ∧
      base64urlDecode second = .ok document ∧ TooDeep document

theorem isValueError_of_base64urlDecode {text : String} {error : Exn}
    (refused : base64urlDecode text = .error error) : error.isValueError = true := by
  unfold base64urlDecode at refused
  split at refused
  · cases refused
  · cases refused
    decide

theorem decodeParts_error_iff (documented : RaisesAsDocumented loads TooDeep)
    (first second third : String) :
    (∃ error, decodeParts loads first second third = .error error ∧ error.isValueError = false) ↔
      ReachesDeepDocument loads TooDeep first second := by
  constructor
  · rintro ⟨error, failed, other⟩
    have loaded : ∀ {document}, ¬ TooDeep document → loads document ≠ .error error := by
      intro document shallow refused
      rw [documented.refused document error shallow refused] at other
      cases other
    have decoded : ∀ {text}, base64urlDecode text ≠ .error error := by
      intro text refused
      rw [isValueError_of_base64urlDecode refused] at other
      cases other
    rcases bind_error failed with refused | ⟨document, firstDecoded, failed⟩
    · exact absurd refused decoded
    by_cases deep : TooDeep document
    · exact .inl ⟨document, firstDecoded, deep⟩
    rcases bind_error failed with refused | ⟨value, firstLoaded, failed⟩
    · exact absurd refused (loaded deep)
    rcases bind_error failed with refused | ⟨next, secondDecoded, failed⟩
    · exact absurd refused decoded
    by_cases nextDeep : TooDeep next
    · exact .inr ⟨document, value, next, firstDecoded, firstLoaded, secondDecoded, nextDeep⟩
    rcases bind_error failed with refused | ⟨nextValue, secondLoaded, failed⟩
    · exact absurd refused (loaded nextDeep)
    rcases bind_error failed with refused | ⟨signature, thirdDecoded, failed⟩
    · exact absurd refused decoded
    · cases failed
  · rintro (⟨document, decoded, deep⟩ | ⟨accepted, value, document, firstDecoded, loaded, decoded, deep⟩)
    · exact ⟨.recursionError, by simp [decodeParts, decoded, documented.deep document deep], by decide⟩
    · refine ⟨.recursionError, ?_, by decide⟩
      simp [decodeParts, firstDecoded, loaded, decoded, documented.deep document deep]

/-- A token of three parts of which a document that nests too deep is reached. -/
def DeepToken (loads : Bytes → Except Exn Json) (TooDeep : Bytes → Prop) (token : String) : Prop :=
  ∃ first second third, Text.splitOn '.' token = [first, second, third] ∧
    ReachesDeepDocument loads TooDeep first second

theorem contained_decodeTokenParts_iff (documented : RaisesAsDocumented loads TooDeep)
    (token : String) :
    Contained (decodeTokenParts loads token) ↔ ¬ DeepToken loads TooDeep token := by
  unfold decodeTokenParts
  split
  · rename_i first second third parts
    have deep_iff : DeepToken loads TooDeep token ↔ ReachesDeepDocument loads TooDeep first second := by
      simp [DeepToken, parts]
    rw [deep_iff, ← decodeParts_error_iff documented first second third]
    constructor
    · rintro contained ⟨error, failed, other⟩
      exact contained error (by simp [failed, unauthorizedOnValueError, other])
    · intro handled
      apply Contained.bind
      · unfold unauthorizedOnValueError
        split
        · exact .ok _
        · rename_i error failed
          split
          · exact .unauthorized _
          · rename_i other
            exact absurd ⟨error, failed, by simpa using other⟩ handled
      · rintro ⟨header, payload, signature⟩ _
        dsimp only
        split
        · exact .ok _
        · exact .unauthorized _
  · rename_i notThree
    refine ⟨?_, fun _ => .unauthorized _⟩
    rintro _ ⟨first, second, third, parts, _⟩
    exact notThree first second third parts

theorem contained_validateDemoJwt_iff (documented : RaisesAsDocumented loads TooDeep) (mac : Mac)
    (token : String) (settings : Settings) (now : DateTime) :
    Contained (validateDemoJwt loads mac token settings now) ↔ ¬ DeepToken loads TooDeep token := by
  rw [← contained_decodeTokenParts_iff documented]
  constructor
  · intro contained error escaped
    exact contained error (by simp [validateDemoJwt, escaped])
  · intro contained
    apply Contained.bind contained
    rintro ⟨header, payload, signed, signature⟩ decoded
    obtain ⟨first, second, rfl, reads⟩ := decodeTokenParts_eq_ok decoded
    obtain ⟨_, firstDecoded, _⟩ := reads.header
    obtain ⟨_, secondDecoded, _⟩ := reads.payload
    -- both parts passed the decoder, which reads ASCII only
    obtain ⟨message, encoded⟩ := exists_encodeAscii_join (ascii_of_base64urlDecode firstDecoded)
      (ascii_of_base64urlDecode secondDecoded)
    dsimp only
    split
    · exact .unauthorized _
    · simp only [encoded, Except.mapError, ok_bind]
      split
      · exact .unauthorized _
      · exact contained_validateClaims _

theorem raised_of_deepToken (documented : RaisesAsDocumented loads TooDeep) (mac : Mac)
    (settings : Settings) (now : DateTime) {header token : String} (enabled : settings.authEnabled = true)
    (bearer : bearerToken? header = some token) (deep : DeepToken loads TooDeep token) :
    ∃ error, getRequestContext loads mac settings now (some header) = .error (.raised error) := by
  have escapes : ¬ Contained (validateDemoJwt loads mac token settings now) := by
    rw [contained_validateDemoJwt_iff documented]
    exact not_not_intro deep
  simp only [Contained, not_forall, not_not] at escapes
  obtain ⟨error, raised⟩ := escapes
  exact ⟨error, by simp [getRequestContext, enabled, bearer, raised, Except.map]⟩

/-- A bad header is answered with `UnauthorizedError`, unless a document of its token that is
read nests too deep: `RecursionError` is no `ValueError`. -/
theorem bad_tokens_unauthorized_iff (loads : Bytes → Except Exn Json) (TooDeep : Bytes → Prop)
    (documented : RaisesAsDocumented loads TooDeep) (mac : Mac) (settings : Settings)
    (enabled : settings.authEnabled = true) (now : DateTime) (authorization : Option String) :
    ((∃ context, getRequestContext loads mac settings now authorization = .ok (some context)) ∨
      ∃ message, getRequestContext loads mac settings now authorization =
        .error (.unauthorized message)) ↔
      ∀ header ∈ authorization, ∀ token ∈ bearerToken? header, ¬ DeepToken loads TooDeep token := by
  unfold getRequestContext
  rw [if_neg (by simp [enabled])]
  cases authorization with
  | none => simp
  | some header =>
      simp only [Option.mem_def, Option.some.injEq, forall_eq']
      cases bearerToken? header with
      | none => simp
      | some token =>
          simp only [Option.some.injEq, forall_eq',
            ← contained_validateDemoJwt_iff documented mac token settings now]
          cases outcome : validateDemoJwt loads mac token settings now with
          | ok context => simp [Except.map, Contained.ok]
          | error error =>
              cases error with
              | unauthorized message => simp [Except.map, Contained.unauthorized]
              | raised error => simp [Except.map, Contained]

/-- The documents that open more brackets than the interpreter allows. -/
def OpensTooMany (document : Bytes) : Prop :=
  10000 < (document.takeWhile (· = 91)).length

instance (document : Bytes) : Decidable (OpensTooMany document) :=
  inferInstanceAs (Decidable (_ < _))

/-- `json.loads` on documents that are no JSON. -/
def loadsMalformed (document : Bytes) : Except Exn Json :=
  if OpensTooMany document then .error .recursionError else .error (.other "JSONDecodeError")

theorem loadsMalformed_documented : RaisesAsDocumented loadsMalformed OpensTooMany where
  deep document deep := if_pos deep
  refused document error shallow failed := by
    rw [loadsMalformed, if_neg shallow] at failed
    cases failed
    decide

theorem bearerToken?_bearer {token : String} (nonempty : token ≠ "") :
    bearerToken? ("Bearer " ++ token) = some token := by
  have scheme : lowerAscii "Bearer" = "bearer" := by decide
  have parted : Text.partition ' ' ("Bearer " ++ token) = ("Bearer", " ", token) := by
    simp [Text.partition]
  simp [bearerToken?, parted, scheme, nonempty]

theorem getRequestContext_bearer {loads : Bytes → Except Exn Json} {mac : Mac} {settings : Settings}
    {now : DateTime} {token : String} {context : RequestContext}
    (enabled : settings.authEnabled = true)
    (validated : validateDemoJwt loads mac token settings now = .ok context) :
    getRequestContext loads mac settings now (some ("Bearer " ++ token)) = .ok (some context) := by
  have nonempty : token ≠ "" := by
    intro empty
    have parts : Text.splitOn '.' "" = [""] := by decide
    rw [empty, validateDemoJwt, decodeTokenParts, parts] at validated
    cases validated
  simp [getRequestContext, enabled, bearerToken?_bearer nonempty, validated, Except.map]

/-- Every tenant but the empty one has tokens that are accepted. -/
theorem exists_bearer (digest : Bytes → Bytes → Bytes) {settings : Settings}
    (enabled : settings.authEnabled = true) (issuer : settings.authIssuer ≠ "")
    {tenantId subject : String} (tenant : tenantId ≠ "") (named : subject ≠ "")
    (scopes : List String) {expiresDelta : Int} {issuedAt now : DateTime}
    (live : timestampSeconds now < timestampSeconds (issuedAt + expiresDelta)) :
    let payload := demoPayload settings tenantId subject scopes expiresDelta issuedAt
    ∃ authorization, getRequestContext (loadsOnly payload) (.exact digest) settings now
      (some authorization) = .ok (some ⟨tenantId, subject, scopes⟩) := by
  intro payload
  obtain ⟨token, message, _, encoded, reads⟩ :=
    encodeDemoJwt_readsAs (.exact digest) settings.authDemoSecret payload
      (loadsOnly_header payload) (loadsOnly_payload _ _ _ _ _ _)
  have validated : validateDemoJwt (loadsOnly payload) (.exact digest) token settings now =
      .ok ⟨tenantId, subject, scopes⟩ := by
    rw [reads.validateDemoJwt (by simp [tokenHeader, Json.str?]) encoded (by simp [Mac.exact]),
      validateClaims_demoPayload _ _ _ issuer tenant named, if_pos live]
  exact ⟨_, getRequestContext_bearer enabled validated⟩

/-- A token with arrays nested to some depth for its header, and no signature. -/
def nestedToken (depth : Nat) : String :=
  Text.join '.' [base64urlEncode (List.replicate depth 91), "", ""]

theorem nestedToken_deep {depth : Nat} (deep : 10000 < depth) :
    DeepToken loadsMalformed OpensTooMany (nestedToken depth) := by
  refine ⟨base64urlEncode (List.replicate depth 91), "", "", ?_, .inl ⟨_, base64urlDecode_encode _, ?_⟩⟩
  · apply Text.splitOn_join (by simp)
    intro part member dotted
    simp only [List.mem_cons, List.not_mem_nil, or_false] at member
    rcases member with rfl | rfl | rfl
    · exact (plain_base64urlEncode dotted).2 rfl
    · simp at dotted
    · simp at dotted
  · simpa [OpensTooMany] using deep

theorem bearerToken?_nestedToken (depth : Nat) :
    bearerToken? ("Bearer " ++ nestedToken depth) = some (nestedToken depth) := by
  apply bearerToken?_bearer
  intro empty
  have dots := congrArg String.toList empty
  simp [nestedToken, Text.join, List.intercalate] at dots

theorem bad_tokens_unauthorized_iff_malformed :
    let settings : Settings := { authEnabled := true }
    ((∃ context, getRequestContext loadsMalformed demoMac settings 0 (some "Bearer x.y.z") =
        .ok (some context)) ∨
      ∃ message, getRequestContext loadsMalformed demoMac settings 0 (some "Bearer x.y.z") =
        .error (.unauthorized message)) ∧
      ¬ DeepToken loadsMalformed OpensTooMany "x.y.z" := by
  intro settings
  have shallow : ¬ DeepToken loadsMalformed OpensTooMany "x.y.z" := by
    rintro ⟨first, second, third, parts, deep⟩
    have split : Text.splitOn '.' "x.y.z" = ["x", "y", "z"] := by decide
    rw [split] at parts
    cases parts
    have undecoded : base64urlDecode "x" = .error .valueError := by decide
    rcases deep with ⟨document, decoded, _⟩ | ⟨document, _, _, decoded, _⟩
    all_goals
      rw [undecoded] at decoded
      cases decoded
  refine ⟨(bad_tokens_unauthorized_iff loadsMalformed OpensTooMany loadsMalformed_documented demoMac
    settings rfl 0 (some "Bearer x.y.z")).mpr ?_, shallow⟩
  intro header given token bearer
  cases given
  have isToken : bearerToken? "Bearer x.y.z" = some "x.y.z" := by decide
  rw [Option.mem_def, isToken] at bearer
  cases bearer
  exact shallow

/-- With auth enabled, every header is answered with a context or with `UnauthorizedError`. -/
def BadTokensUnauthorized (loads : Bytes → Except Exn Json) : Prop :=
  ∀ (mac : Mac) (settings : Settings) (now : DateTime) (authorization : Option String),
    settings.authEnabled = true →
    (∃ context, getRequestContext loads mac settings now authorization = .ok (some context)) ∨
      ∃ message, getRequestContext loads mac settings now authorization =
        .error (.unauthorized message)

/-- The error of 20000 opening brackets leaves the function. -/
theorem not_badTokensUnauthorized :
    RaisesAsDocumented loadsMalformed OpensTooMany ∧ ¬ BadTokensUnauthorized loadsMalformed := by
  refine ⟨loadsMalformed_documented, ?_⟩
  intro unauthorized
  let settings : Settings := { authEnabled := true }
  obtain ⟨error, raised⟩ := raised_of_deepToken loadsMalformed_documented demoMac settings 0 rfl
    (bearerToken?_nestedToken 20000) (nestedToken_deep (by decide))
  rcases unauthorized demoMac settings 0 (some ("Bearer " ++ nestedToken 20000)) rfl with
    ⟨context, accepted⟩ | ⟨message, refused⟩
  · rw [raised] at accepted
    cases accepted
  · rw [raised] at refused
    cases refused

end Exceptions

end EvaluationService
