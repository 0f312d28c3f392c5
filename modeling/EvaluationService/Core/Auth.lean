import EvaluationService.Core.Config
import EvaluationService.Core.Errors
import EvaluationService.Domain.Models
import EvaluationService.Foundation.Base64
import EvaluationService.Foundation.Double
import EvaluationService.Foundation.Json
import EvaluationService.Foundation.Text

/-!
Demo tokens (`app/core/auth.py`). Text is a sequence of Unicode scalar values, without the
lone surrogates that a Python `str` may hold (`Core.CodePointAuth` has them). `json.loads`
and the keyed hash are parameters: what is proved about tokens is proved for each of them.
-/

set_option autoImplicit false

namespace EvaluationService

open Foundation

abbrev Bytes : Type := List UInt8

/-- `text.encode("utf-8")` -/
def encodeUtf8 (text : String) : Bytes :=
  text.toList.flatMap String.utf8EncodeChar

/-- `text.encode("ascii")` -/
def encodeAscii (text : String) : Except Exn Bytes :=
  if text.toList.all (·.toNat < 128) then .ok (text.toList.map Char.toUInt8)
  else .error (.other "UnicodeEncodeError")

/-- `int(instant.timestamp())`: the seconds as a double, without their fraction. -/
def timestampSeconds (instant : DateTime) : Int :=
  instant.sign * Double.floorQuotient instant.natAbs 1000000

/-- `hmac.new(key, message, sha256).digest()`, and whether a signature is accepted as it. -/
structure Mac where
  digest : Bytes → Bytes → Bytes
  verifies : Bytes → Bytes → Bytes → Bool

/-- The comparison that the code makes; an idealised one accepts less. -/
def Mac.exact (digest : Bytes → Bytes → Bytes) : Mac where
  digest := digest
  verifies key message signature := signature == digest key message

structure RequestContext where
  tenantId : String
  subject : String
  scopes : List String := []
deriving DecidableEq, Repr

/-- What the functions of the module raise: `UnauthorizedError` with its message, or an
exception of the code they call. -/
inductive AuthError where
  | unauthorized (message : String)
  | raised (error : Exn)
deriving DecidableEq, Repr

def AuthError.exn : AuthError → Exn
  | unauthorized _ => .app .unauthorized
  | raised error => error

/-- `ValueError` and the subclasses of it that decoding raises. -/
def Exn.isValueError : Exn → Bool
  | .app _ => false
  | .other className =>
      ["ValueError", "JSONDecodeError", "UnicodeDecodeError", "UnicodeEncodeError",
        "binascii.Error"].contains className

/-! ## Encoding -/

def base64urlEncode (value : Bytes) : String :=
  String.ofList (Base64.withoutPadding (Base64.urlsafeEncode value))

/-- Both errors of the decoder are instances of `ValueError`. -/
def base64urlDecode (value : String) : Except Exn Bytes :=
  match Base64.urlsafeDecode? (Base64.withPadding value.toList) with
  | some bytes => .ok bytes
  | none => .error .valueError

def tokenHeader : List (String × Json) :=
  [("alg", .str "HS256"), ("typ", .str "JWT")]

def signingInput (payload : List (String × Json)) : String :=
  Text.join '.'
    [base64urlEncode (encodeUtf8 (Json.object tokenHeader).dumps),
      base64urlEncode (encodeUtf8 (Json.object payload).dumps)]

def encodeDemoJwt (mac : Mac) (payload : List (String × Json)) (secret : String) :
    Except Exn String := do
  let message ← encodeAscii (signingInput payload)
  let signature := mac.digest (encodeUtf8 secret) message
  return Text.join '.' [signingInput payload, base64urlEncode signature]

def demoPayload (settings : Settings) (tenantId subject : String) (scopes : List String)
    (expiresDelta : Int) (now : DateTime) : List (String × Json) :=
  [("iss", .str settings.authIssuer), ("aud", .str settings.authAudience), ("sub", .str subject),
    ("tenant_id", .str tenantId), ("scopes", .array (scopes.map .str)),
    ("iat", .int (timestampSeconds now)), ("exp", .int (timestampSeconds (now + expiresDelta)))]

def createDemoJwt (mac : Mac) (settings : Settings) (tenantId subject : String)
    (scopes : List String) (expiresDelta : Int) (now : DateTime) : Except Exn String :=
  encodeDemoJwt mac (demoPayload settings tenantId subject scopes expiresDelta now)
    settings.authDemoSecret

/-! ## Claims -/

def requiredString (payload : List (String × Json)) (claim : String) : Except AuthError String :=
  match payload.lookup claim with
  | some (.str value) =>
      if value = "" then .error (.unauthorized s!"Missing token claim: {claim}.") else .ok value
  | _ => .error (.unauthorized s!"Missing token claim: {claim}.")

def requiredInt (payload : List (String × Json)) (claim : String) : Except AuthError Int :=
  match (payload.lookup claim).bind Json.int? with
  | some value => .ok value
  | none => .error (.unauthorized s!"Missing token claim: {claim}.")

def audienceMatches (value : Option Json) (expected : String) : Bool :=
  match value with
  | some (.str value) => value == expected
  | some (.array items) => items.any fun item => Json.str? item == some expected
  | _ => false

def tokenScopes (payload : List (String × Json)) : List String :=
  match payload.lookup "scopes" with
  | some (.str scopes) => (Text.split scopes).filter (· ≠ "")
  | some (.array items) => (items.mapM Json.str?).getD []
  | _ => []

/-! ## Validation -/

section Validation

variable (loads : Bytes → Except Exn Json) (mac : Mac)

/-- `except (ValueError, json.JSONDecodeError) as exc: raise UnauthorizedError(message)` -/
def unauthorizedOnValueError {Value : Type} (message : String) (body : Except Exn Value) :
    Except AuthError Value :=
  match body with
  | .ok value => .ok value
  | .error error =>
      if error.isValueError then .error (.unauthorized message) else .error (.raised error)

def decodeParts (first second third : String) : Except Exn (Json × Json × Bytes) := do
  let header ← loads (← base64urlDecode first)
  let payload ← loads (← base64urlDecode second)
  let signature ← base64urlDecode third
  return (header, payload, signature)

def decodeTokenParts (token : String) :
    Except AuthError (List (String × Json) × List (String × Json) × String × Bytes) :=
  match Text.splitOn '.' token with
  | [first, second, third] => do
      let signingInput := Text.join '.' [first, second]
      let (header, payload, signature) ←
        unauthorizedOnValueError "Invalid token encoding." (decodeParts loads first second third)
      match header, payload with
      | .object header, .object payload => return (header, payload, signingInput, signature)
      | _, _ => throw (.unauthorized "Invalid token content.")
  | _ => throw (.unauthorized "Invalid token format.")

/-- The checks of `validate_demo_jwt` on the claims of a token with a valid signature. -/
def validateClaims (settings : Settings) (now : DateTime) (payload : List (String × Json)) :
    Except AuthError RequestContext := do
  let currentTime := timestampSeconds now
  if (← requiredString payload "iss") ≠ settings.authIssuer then
    throw (.unauthorized "Invalid token issuer.")
  if !audienceMatches (payload.lookup "aud") settings.authAudience then
    throw (.unauthorized "Invalid token audience.")
  if (← requiredInt payload "exp") ≤ currentTime then
    throw (.unauthorized "Token has expired.")
  let tenantId ← requiredString payload "tenant_id"
  let subject ← requiredString payload "sub"
  return { tenantId, subject, scopes := tokenScopes payload }

def validateDemoJwt (token : String) (settings : Settings) (now : DateTime) :
    Except AuthError RequestContext := do
  let (header, payload, signingInput, signature) ← decodeTokenParts loads token
  if (header.lookup "alg").bind Json.str? ≠ some "HS256" then
    throw (.unauthorized "Unsupported token algorithm.")
  let message ← (encodeAscii signingInput).mapError .raised
  if !mac.verifies (encodeUtf8 settings.authDemoSecret) message signature then
    throw (.unauthorized "Invalid token signature.")
  validateClaims settings now payload

/-- `scheme.lower()`, for the comparison with an ASCII word: no character outside ASCII has one
of the letters of `bearer` as its lowercase. -/
def lowerAscii (text : String) : String :=
  String.ofList (text.toList.map Char.toLower)

/-- The token of an `Authorization` header, if it is a bearer header with one. -/
def bearerToken? (authorization : String) : Option String :=
  let (scheme, _, token) := Text.partition ' ' authorization
  if lowerAscii scheme ≠ "bearer" ∨ token = "" then none else some token

def getRequestContext (settings : Settings) (now : DateTime) (authorization : Option String) :
    Except AuthError (Option RequestContext) :=
  if !settings.authEnabled then .ok none
  else
    match authorization with
    | none => .error (.unauthorized "Missing bearer token.")
    | some authorization =>
        match bearerToken? authorization with
        | none => .error (.unauthorized "Invalid authorization header.")
        | some token => (validateDemoJwt loads mac token settings now).map some

end Validation

end EvaluationService
