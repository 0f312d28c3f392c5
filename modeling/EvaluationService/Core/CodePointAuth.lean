import EvaluationService.Core.Auth
import EvaluationService.Foundation.CodePoints

/-!
Demo tokens (`app/core/auth.py`) over texts of code points. `json.loads` makes a lone
surrogate of an escape such as `\ud800`, and a claim keeps it. Token and settings have none:
a header is decoded from Latin-1, and settings are validated strings. On documents without
surrogates the functions are those of `Core.Auth`.
-/

set_option autoImplicit false

namespace EvaluationService.CodePoints

open Foundation

/-- What `json.loads` returns. -/
inductive Json where
  | null
  | bool (value : Bool)
  | int (value : Int)
  | float (literal : String)
  | str (value : CodeText)
  | array (items : List Json)
  | object (members : List (CodeText × Json))

namespace Json

def int? : Json → Option Int
  | int value => some value
  | bool value => some (if value then 1 else 0)
  | _ => none

def str? : Json → Option CodeText
  | str value => some value
  | _ => none

end Json

structure RequestContext where
  tenantId : CodeText
  subject : CodeText
  scopes : List CodeText := []
deriving DecidableEq, Repr

/-! ## Claims -/

def requiredString (payload : List (CodeText × Json)) (claim : String) :
    Except AuthError CodeText :=
  match payload.lookup (.ofString claim) with
  | some (.str value) =>
      if value = [] then .error (.unauthorized s!"Missing token claim: {claim}.") else .ok value
  | _ => .error (.unauthorized s!"Missing token claim: {claim}.")

def requiredInt (payload : List (CodeText × Json)) (claim : String) : Except AuthError Int :=
  match (payload.lookup (.ofString claim)).bind Json.int? with
  | some value => .ok value
  | none => .error (.unauthorized s!"Missing token claim: {claim}.")

def audienceMatches (value : Option Json) (expected : String) : Bool :=
  match value with
  | some (.str value) => value == .ofString expected
  | some (.array items) => items.any fun item => item.str? == some (.ofString expected)
  | _ => false

def tokenScopes (payload : List (CodeText × Json)) : List CodeText :=
  match payload.lookup (.ofString "scopes") with
  | some (.str scopes) => (CodeText.split scopes).filter (· ≠ [])
  | some (.array items) => (items.mapM Json.str?).getD []
  | _ => []

/-! ## Validation -/

section Validation

variable (loads : Bytes → Except Exn Json) (mac : Mac)

def decodeParts (first second third : String) : Except Exn (Json × Json × Bytes) := do
  let header ← loads (← base64urlDecode first)
  let payload ← loads (← base64urlDecode second)
  let signature ← base64urlDecode third
  return (header, payload, signature)

def decodeTokenParts (token : String) :
    Except AuthError (List (CodeText × Json) × List (CodeText × Json) × String × Bytes) :=
  match Text.splitOn '.' token with
  | [first, second, third] => do
      let signingInput := Text.join '.' [first, second]
      let (header, payload, signature) ←
        unauthorizedOnValueError "Invalid token encoding." (decodeParts loads first second third)
      match header, payload with
      | .object header, .object payload => return (header, payload, signingInput, signature)
      | _, _ => throw (.unauthorized "Invalid token content.")
  | _ => throw (.unauthorized "Invalid token format.")

def validateClaims (settings : Settings) (now : DateTime) (payload : List (CodeText × Json)) :
    Except AuthError RequestContext := do
  let currentTime := timestampSeconds now
  if (← requiredString payload "iss") ≠ .ofString settings.authIssuer then
    throw (.unauthorized "Invalid token issuer.")
  if !audienceMatches (payload.lookup (.ofString "aud")) settings.authAudience then
    throw (.unauthorized "Invalid token audience.")
  if (← requiredInt payload "exp") ≤ currentTime then
    throw (.unauthorized "Token has expired.")
  let tenantId ← requiredString payload "tenant_id"
  let subject ← requiredString payload "sub"
  return { tenantId, subject, scopes := tokenScopes payload }

def validateDemoJwt (token : String) (settings : Settings) (now : DateTime) :
    Except AuthError RequestContext := do
  let (header, payload, signingInput, signature) ← decodeTokenParts loads token
  if (header.lookup (.ofString "alg")).bind Json.str? ≠ some (.ofString "HS256") then
    throw (.unauthorized "Unsupported token algorithm.")
  let message ← (encodeAscii signingInput).mapError .raised
  if !mac.verifies (encodeUtf8 settings.authDemoSecret) message signature then
    throw (.unauthorized "Invalid token signature.")
  validateClaims settings now payload

def getRequestContext (settings : Settings) (now : DateTime) (authorization : Option String) :
    Except AuthError (Option RequestContext) :=
  if !settings.authEnabled then .ok none
  else
    match authorization with
    | none => .error (.unauthorized "Missing bearer token.")
    | some authorization =>
        match bearerToken? authorization with
        | none => .error (.unauthorized "Invalid authorization header.")
        | some token => (validateDemoJwt loads mac token settings now).map some

end Validation

theorem ne_nil_of_requiredString {payload : List (CodeText × Json)} {claim : String}
    {value : CodeText} (found : requiredString payload claim = .ok value) : value ≠ [] := by
  unfold requiredString at found
  split at found
  · split at found
    · cases found
    · rename_i nonempty
      obtain rfl := Except.ok.inj found
      exact nonempty
  · cases found

theorem requiredString_of_validateClaims {settings : Settings} {now : DateTime}
    {payload : List (CodeText × Json)} {context : RequestContext}
    (valid : validateClaims settings now payload = .ok context) :
    requiredString payload "tenant_id" = .ok context.tenantId := by
  unfold validateClaims at valid
  cases issuer : requiredString payload "iss" with
  | error error => simp [issuer] at valid
  | ok value =>
      by_cases issued : value = .ofString settings.authIssuer
      swap
      · simp [issuer, issued] at valid
      cases audience : audienceMatches (payload.lookup (.ofString "aud")) settings.authAudience with
      | false => simp [issuer, issued, audience] at valid
      | true =>
          cases expires : requiredInt payload "exp" with
          | error error => simp [issuer, issued, audience, expires] at valid
          | ok expiry =>
              by_cases expired : expiry ≤ timestampSeconds now
              · simp [issuer, issued, audience, expires, expired] at valid
              · cases tenant : requiredString payload "tenant_id" with
                | error error => simp [issuer, issued, audience, expires, expired, tenant] at valid
                | ok tenantId =>
                    cases named : requiredString payload "sub" with
                    | error error =>
                        simp [issuer, issued, audience, expires, expired, tenant, named] at valid
                    | ok subject =>
                        simp [issuer, issued, audience, expires, expired, tenant, named] at valid
                        rw [← valid]

theorem exists_claims_of_validateDemoJwt {loads : Bytes → Except Exn Json} {mac : Mac}
    {token : String} {settings : Settings} {now : DateTime} {context : RequestContext}
    (valid : validateDemoJwt loads mac token settings now = .ok context) :
    ∃ payload, validateClaims settings now payload = .ok context := by
  unfold validateDemoJwt at valid
  obtain ⟨⟨header, payload, signed, signature⟩, -, valid⟩ := bind_ok valid
  dsimp only at valid
  split at valid
  · cases valid
  · obtain ⟨message, -, valid⟩ := bind_ok valid
    split at valid
    · cases valid
    · exact ⟨payload, valid⟩

/-- A caller is somebody's: the tenant of a token is not empty. -/
theorem tenantId_ne_nil {loads : Bytes → Except Exn Json} {mac : Mac} {settings : Settings}
    {now : DateTime} {authorization : Option String} {caller : RequestContext}
    (validated : getRequestContext loads mac settings now authorization = .ok (some caller)) :
    caller.tenantId ≠ [] := by
  unfold getRequestContext at validated
  split at validated
  · cases validated
  · split at validated
    · cases validated
    · split at validated
      · cases validated
      · rename_i token _
        cases valid : validateDemoJwt loads mac token settings now with
        | error error =>
            rw [valid] at validated
            cases validated
        | ok context =>
            rw [valid] at validated
            obtain rfl := Option.some.inj (Except.ok.inj validated)
            obtain ⟨payload, claims⟩ := exists_claims_of_validateDemoJwt valid
            exact ne_nil_of_requiredString (requiredString_of_validateClaims claims)

/-! ## Documents without surrogates -/

mutual

def Json.ofJson : Foundation.Json → Json
  | .null => .null
  | .bool value => .bool value
  | .int value => .int value
  | .float literal => .float literal
  | .str value => .str (.ofString value)
  | .array items => .array (ofItems items)
  | .object members => .object (ofMembers members)

def ofItems : List Foundation.Json → List Json
  | [] => []
  | item :: rest => .ofJson item :: ofItems rest

def ofMembers : List (String × Foundation.Json) → List (CodeText × Json)
  | [] => []
  | (key, value) :: rest => (.ofString key, .ofJson value) :: ofMembers rest

end

def RequestContext.ofContext (context : EvaluationService.RequestContext) : RequestContext where
  tenantId := .ofString context.tenantId
  subject := .ofString context.subject
  scopes := context.scopes.map .ofString

theorem int?_ofJson (value : Foundation.Json) : (Json.ofJson value).int? = value.int? := by
  cases value <;> rfl

theorem str?_ofJson (value : Foundation.Json) :
    (Json.ofJson value).str? = value.str?.map .ofString := by
  cases value <;> rfl

section Payload

variable (payload : List (String × Foundation.Json))

theorem lookup_ofMembers (key : String) :
    (ofMembers payload).lookup (.ofString key) = (payload.lookup key).map .ofJson := by
  induction payload with
  | nil => rfl
  | cons first rest ih =>
      obtain ⟨name, value⟩ := first
      rw [ofMembers, List.lookup_cons, List.lookup_cons, ih]
      by_cases same : key = name
      · simp [same]
      · have other : CodeText.ofString key ≠ .ofString name :=
          fun equal => same (CodeText.ofString_injective equal)
        rw [beq_eq_false_iff_ne.mpr same, beq_eq_false_iff_ne.mpr other]

theorem requiredString_ofMembers (claim : String) :
    requiredString (ofMembers payload) claim =
      (EvaluationService.requiredString payload claim).map .ofString := by
  rw [requiredString, EvaluationService.requiredString, lookup_ofMembers]
  cases payload.lookup claim with
  | none => rfl
  | some value =>
      cases value with
      | str text =>
          by_cases empty : text = ""
          · simp [Json.ofJson, empty, CodeText.ofString_eq_nil_iff, Except.map]
          · simp [Json.ofJson, empty, CodeText.ofString_eq_nil_iff, Except.map]
      | _ => rfl

theorem requiredInt_ofMembers (claim : String) :
    requiredInt (ofMembers payload) claim = EvaluationService.requiredInt payload claim := by
  rw [requiredInt, EvaluationService.requiredInt, lookup_ofMembers]
  cases payload.lookup claim with
  | none => rfl
  | some value =>
      have same := int?_ofJson value
      cases read : value.int? with
      | none => simp [same, read]
      | some number => simp [same, read]

theorem any_ofItems (items : List Foundation.Json) (expected : String) :
    ((ofItems items).any fun item => item.str? == some (.ofString expected)) =
      items.any fun item => item.str? == some expected := by
  induction items with
  | nil => rfl
  | cons first rest ih =>
      have head : (first.str?.map CodeText.ofString == some (.ofString expected)) =
          (first.str? == some expected) := by
        cases first.str? with
        | none => rfl
        | some text =>
            rw [Bool.eq_iff_iff, beq_iff_eq, beq_iff_eq, Option.map_some, Option.some.injEq,
              Option.some.injEq, CodeText.ofString_injective.eq_iff]
      rw [ofItems, List.any_cons, List.any_cons, str?_ofJson, head, ih]

theorem audienceMatches_ofJson (value : Option Foundation.Json) (expected : String) :
    audienceMatches (value.map .ofJson) expected =
      EvaluationService.audienceMatches value expected := by
  cases value with
  | none => rfl
  | some value =>
      cases value with
      | str text =>
          change (CodeText.ofString text == .ofString expected) = (text == expected)
          rw [Bool.eq_iff_iff, beq_iff_eq, beq_iff_eq, CodeText.ofString_injective.eq_iff]
      | array items => exact any_ofItems items expected
      | _ => rfl

theorem mapM_ofItems (items : List Foundation.Json) :
    (ofItems items).mapM Json.str? =
      (items.mapM Foundation.Json.str?).map (List.map CodeText.ofString) := by
  induction items with
  | nil => rfl
  | cons first rest ih =>
      rw [ofItems, List.mapM_cons, List.mapM_cons, str?_ofJson, ih]
      cases first.str? with
      | none => rfl
      | some text =>
          cases rest.mapM Foundation.Json.str? with
          | none => rfl
          | some texts => rfl

theorem tokenScopes_ofMembers :
    tokenScopes (ofMembers payload) = (EvaluationService.tokenScopes payload).map .ofString := by
  rw [tokenScopes, EvaluationService.tokenScopes, lookup_ofMembers]
  cases payload.lookup "scopes" with
  | none => rfl
  | some value =>
      cases value with
      | str text =>
          dsimp only [Option.map_some, Json.ofJson]
          rw [CodeText.split_ofString, List.filter_map]
          congr 2
          funext scope
          simp [CodeText.ofString_eq_nil_iff]
      | array items =>
          dsimp only [Option.map_some, Json.ofJson]
          rw [mapM_ofItems]
          cases items.mapM Foundation.Json.str? <;> rfl
      | _ => rfl

theorem validateClaims_ofMembers (settings : Settings) (now : DateTime) :
    validateClaims settings now (ofMembers payload) =
      (EvaluationService.validateClaims settings now payload).map .ofContext := by
  unfold validateClaims EvaluationService.validateClaims
  rw [requiredString_ofMembers, requiredString_ofMembers, requiredString_ofMembers,
    requiredInt_ofMembers, lookup_ofMembers, audienceMatches_ofJson, tokenScopes_ofMembers]
  cases EvaluationService.requiredString payload "iss" with
  | error error => rfl
  | ok issuer =>
      by_cases issued : issuer = settings.authIssuer
      swap
      · simp [issued, CodeText.ofString_injective.eq_iff, Except.map]
      cases EvaluationService.audienceMatches (payload.lookup "aud") settings.authAudience with
      | false => simp [issued, Except.map]
      | true =>
          cases EvaluationService.requiredInt payload "exp" with
          | error error => simp [issued, Except.map]
          | ok expiry =>
              by_cases expired : expiry ≤ timestampSeconds now
              · simp [issued, expired, Except.map]
              · cases EvaluationService.requiredString payload "tenant_id" with
                | error error => simp [issued, expired, Except.map]
                | ok tenant =>
                    cases EvaluationService.requiredString payload "sub" with
                    | error error => simp [issued, expired, Except.map]
                    | ok sub => simp [issued, expired, Except.map, RequestContext.ofContext]

end Payload

/-! ## Tokens -/

section Tokens

variable (loads : Bytes → Except Exn Foundation.Json) (mac : Mac)

/-- `json.loads` where it returns no surrogates. -/
def ofLoads (document : Bytes) : Except Exn Json :=
  (loads document).map .ofJson

theorem decodeParts_ofLoads (first second third : String) :
    decodeParts (ofLoads loads) first second third =
      (EvaluationService.decodeParts loads first second third).map fun parts =>
        (.ofJson parts.1, .ofJson parts.2.1, parts.2.2) := by
  unfold decodeParts EvaluationService.decodeParts
  cases base64urlDecode first with
  | error error => rfl
  | ok headerDocument =>
      cases header : loads headerDocument with
      | error error => simp [ofLoads, header, Except.map]
      | ok headerValue =>
          cases base64urlDecode second with
          | error error => simp [ofLoads, header, Except.map]
          | ok document =>
              cases payload : loads document with
              | error error => simp [ofLoads, header, payload, Except.map]
              | ok value =>
                  cases base64urlDecode third with
                  | error error => simp [ofLoads, header, payload, Except.map]
                  | ok signature => simp [ofLoads, header, payload, Except.map]

theorem decodeTokenParts_ofLoads (token : String) :
    decodeTokenParts (ofLoads loads) token =
      (EvaluationService.decodeTokenParts loads token).map fun parts =>
        (ofMembers parts.1, ofMembers parts.2.1, parts.2.2) := by
  unfold decodeTokenParts EvaluationService.decodeTokenParts
  rcases Text.splitOn '.' token with _ | ⟨first, _ | ⟨second, _ | ⟨third, _ | ⟨fourth, rest⟩⟩⟩⟩
  case cons.cons.cons.nil =>
    dsimp only
    rw [decodeParts_ofLoads]
    cases EvaluationService.decodeParts loads first second third with
    | error error =>
        dsimp only [Except.map, unauthorizedOnValueError]
        cases error.isValueError <;> rfl
    | ok decoded =>
        obtain ⟨header, payload, signature⟩ := decoded
        cases header with
        | object header => cases payload <;> rfl
        | _ => rfl
  all_goals rfl

theorem validateDemoJwt_ofLoads (token : String) (settings : Settings) (now : DateTime) :
    validateDemoJwt (ofLoads loads) mac token settings now =
      (EvaluationService.validateDemoJwt loads mac token settings now).map .ofContext := by
  unfold validateDemoJwt EvaluationService.validateDemoJwt
  rw [decodeTokenParts_ofLoads]
  cases EvaluationService.decodeTokenParts loads token with
  | error error => rfl
  | ok parts =>
      obtain ⟨header, payload, signed, signature⟩ := parts
      have algorithm : ((ofMembers header).lookup (.ofString "alg")).bind Json.str? =
          some (.ofString "HS256") ↔
            (header.lookup "alg").bind Foundation.Json.str? = some "HS256" := by
        have found : ((ofMembers header).lookup (.ofString "alg")).bind Json.str? =
            ((header.lookup "alg").bind Foundation.Json.str?).map .ofString := by
          rw [lookup_ofMembers]
          cases header.lookup "alg" with
          | none => rfl
          | some value => exact str?_ofJson value
        rw [found, ← Option.map_some]
        exact (Option.map_injective CodeText.ofString_injective).eq_iff
      dsimp only [Except.map]
      by_cases supported : (header.lookup "alg").bind Foundation.Json.str? = some "HS256"
      · have codeSupported := algorithm.mpr supported
        cases encoded : encodeAscii signed with
        | error error => simp [codeSupported, supported, encoded, Except.mapError]
        | ok message =>
            cases verified : mac.verifies (encodeUtf8 settings.authDemoSecret) message signature with
            | false => simp [codeSupported, supported, encoded, verified, Except.mapError]
            | true =>
                simp [codeSupported, supported, encoded, verified, Except.mapError,
                  validateClaims_ofMembers, Except.map]
      · have codeUnsupported := mt algorithm.mp supported
        simp [codeUnsupported, supported]

/-- Without surrogates in its documents a token is read as in `Core.Auth`. -/
theorem getRequestContext_ofLoads (settings : Settings) (now : DateTime)
    (authorization : Option String) :
    getRequestContext (ofLoads loads) mac settings now authorization =
      (EvaluationService.getRequestContext loads mac settings now authorization).map
        (Option.map .ofContext) := by
  unfold getRequestContext EvaluationService.getRequestContext
  cases settings.authEnabled with
  | false => rfl
  | true =>
      cases authorization with
      | none => rfl
      | some authorization =>
          dsimp only [Bool.not_true]
          cases bearerToken? authorization with
          | none => rfl
          | some token =>
              dsimp only
              rw [validateDemoJwt_ofLoads]
              cases EvaluationService.validateDemoJwt loads mac token settings now <;> rfl

end Tokens

end EvaluationService.CodePoints
