import Mathlib.Algebra.Group.Int.Defs
import EvaluationService.Core.Auth

/-!
What a token proves. The signature covers the two encoded parts as they stand in the
token, so whoever cannot sign can only present claims that were issued.
-/

set_option autoImplicit false

namespace EvaluationService

open Foundation

/-! ## Texts and bytes -/

theorem base64urlDecode_encode (bytes : Bytes) : base64urlDecode (base64urlEncode bytes) = .ok bytes := by
  simp only [base64urlDecode, base64urlEncode, String.toList_ofList,
    Base64.urlsafeDecode?_withPadding]

theorem plain_base64urlEncode {bytes : Bytes} {character : Char}
    (member : character ∈ (base64urlEncode bytes).toList) :
    character.toNat < 128 ∧ character ≠ '.' := by
  simp only [base64urlEncode, String.toList_ofList] at member
  exact Base64.mem_withoutPadding member

theorem ascii_of_base64urlDecode {text : String} {bytes : Bytes}
    (decoded : base64urlDecode text = .ok bytes) : ∀ character ∈ text.toList, character.toNat < 128 := by
  unfold base64urlDecode Base64.urlsafeDecode? at decoded
  split at decoded
  · rename_i found
    split at found
    · rename_i ascii
      intro character member
      simp only [List.all_eq_true, decide_eq_true_eq] at ascii
      exact ascii character (List.mem_append_left _ member)
    · cases found
  · cases decoded

theorem encodeAscii_eq_ok_iff {text : String} {message : Bytes} :
    encodeAscii text = .ok message ↔ (∀ character ∈ text.toList, character.toNat < 128) ∧
      message = text.toList.map Char.toUInt8 := by
  unfold encodeAscii
  split
  · rename_i ascii
    simp only [List.all_eq_true, decide_eq_true_eq] at ascii
    simp only [Except.ok.injEq]
    exact ⟨fun same => ⟨ascii, same.symm⟩, fun same => same.2.symm⟩
  · rename_i other
    simp only [List.all_eq_true, decide_eq_true_eq] at other
    simp only [reduceCtorEq, false_iff]
    exact fun same => other same.1

theorem toUInt8_inj {first second : Char} (firstAscii : first.toNat < 128)
    (secondAscii : second.toNat < 128) (same : first.toUInt8 = second.toUInt8) :
    first = second := by
  have numbers := congrArg UInt8.toNat same
  simp only [Char.toUInt8, UInt32.toNat_toUInt8] at numbers
  have firstSmall : first.val.toNat < 128 := firstAscii
  have secondSmall : second.val.toNat < 128 := secondAscii
  apply Char.ext
  apply UInt32.toNat_inj.mp
  omega

theorem encodeAscii_inj {first second : String} {message : Bytes}
    (firstEncoded : encodeAscii first = .ok message)
    (secondEncoded : encodeAscii second = .ok message) : first = second := by
  obtain ⟨firstAscii, rfl⟩ := encodeAscii_eq_ok_iff.mp firstEncoded
  obtain ⟨secondAscii, same⟩ := encodeAscii_eq_ok_iff.mp secondEncoded
  apply String.toList_inj.mp
  generalize first.toList = left at firstAscii same
  generalize second.toList = right at secondAscii same
  induction left generalizing right with
  | nil => simpa using same
  | cons head tail ih =>
      cases right with
      | nil => simp at same
      | cons other rest =>
          simp only [List.map_cons, List.cons.injEq] at same
          simp only [List.mem_cons, forall_eq_or_imp] at firstAscii secondAscii
          have sameHead := toUInt8_inj firstAscii.1 secondAscii.1 same.1
          have sameTail := ih firstAscii.2 rest secondAscii.2 same.2
          rw [sameHead, sameTail]

theorem mem_join {separator character : Char} {first second : String}
    (member : character ∈ (Text.join separator [first, second]).toList) :
    character ∈ first.toList ∨ character = separator ∨ character ∈ second.toList := by
  simpa [Text.join, List.intercalate] using member

theorem exists_encodeAscii_join {first second : String}
    (firstAscii : ∀ character ∈ first.toList, character.toNat < 128)
    (secondAscii : ∀ character ∈ second.toList, character.toNat < 128) :
    ∃ message, encodeAscii (Text.join '.' [first, second]) = .ok message := by
  refine ⟨_, encodeAscii_eq_ok_iff.mpr ⟨?_, rfl⟩⟩
  intro character member
  rcases mem_join member with inFirst | rfl | inSecond
  · exact firstAscii character inFirst
  · decide
  · exact secondAscii character inSecond

/-! ## Whole seconds -/

theorem timestampSeconds_natCast (microseconds : Nat) :
    timestampSeconds microseconds = Double.floorQuotient microseconds 1000000 := by
  cases microseconds with
  | zero => decide
  | succ count =>
      have positive : Int.sign ((count + 1 : Nat) : Int) = 1 := rfl
      simp only [timestampSeconds, positive, Int.natAbs_natCast, Int.one_mul]

theorem timestampSeconds_neg (instant : Int) :
    timestampSeconds (-instant) = -timestampSeconds instant := by
  simp only [timestampSeconds, Int.sign_neg, Int.natAbs_neg, Int.neg_mul]

theorem lt_of_timestampSeconds_lt {instant seconds : Int}
    (later : timestampSeconds instant < seconds) : instant < seconds * 1000000 := by
  obtain ⟨microseconds, rfl | rfl⟩ := instant.eq_nat_or_neg
  all_goals
    have bounds := @Double.floorQuotient_bounds microseconds 1000000 (by decide)
    simp only [timestampSeconds_neg, timestampSeconds_natCast] at later
    omega

/-- From 1970 until 2514 the doubles are close enough for `int` to drop just the fraction. -/
theorem timestampSeconds_eq_floor {instant : Int} (since1970 : 0 ≤ instant)
    (until2514 : instant < 2 ^ 34 * 1000000) : timestampSeconds instant = instant / 1000000 := by
  obtain ⟨microseconds, rfl⟩ := Int.eq_ofNat_of_zero_le since1970
  have small : microseconds / 1000000 < 2 ^ (33 + 1) := by omega
  have dense : 1000000 < 2 * Double.spacing microseconds 1000000 :=
    Double.lt_two_mul_spacing small (by decide) (by decide)
  rw [timestampSeconds_natCast, Double.floorQuotient_eq (by decide) dense]
  rfl

/-! ## Claims -/

section Claims

variable {payload : List (String × Json)} {claim : String}

theorem requiredString_eq_ok_iff {value : String} :
    requiredString payload claim = .ok value ↔ payload.lookup claim = some (.str value) ∧ value ≠ "" := by
  unfold requiredString
  split
  · rename_i given found
    simp only [found, Option.some.injEq, Json.str.injEq]
    split
    · rename_i empty
      simp only [reduceCtorEq, empty, false_iff]
      rintro ⟨rfl, nonempty⟩
      exact nonempty rfl
    · rename_i nonempty
      simp only [Except.ok.injEq]
      constructor
      · rintro rfl
        exact ⟨rfl, nonempty⟩
      · rintro ⟨same, _⟩
        exact same
  · rename_i other
    simp only [reduceCtorEq, false_iff]
    rintro ⟨found, _⟩
    exact other value found

theorem requiredInt_eq_ok_iff {value : Int} :
    requiredInt payload claim = .ok value ↔ (payload.lookup claim).bind Json.int? = some value := by
  unfold requiredInt
  cases (payload.lookup claim).bind Json.int? <;> simp

theorem validateClaims_eq_ok_iff {settings : Settings} {now : DateTime} {context : RequestContext} :
    validateClaims settings now payload = .ok context ↔
      requiredString payload "iss" = .ok settings.authIssuer ∧
        audienceMatches (payload.lookup "aud") settings.authAudience = true ∧
        (∃ expiry, requiredInt payload "exp" = .ok expiry ∧ timestampSeconds now < expiry) ∧
        requiredString payload "tenant_id" = .ok context.tenantId ∧
        requiredString payload "sub" = .ok context.subject ∧
        tokenScopes payload = context.scopes := by
  obtain ⟨tenantId, subject, scopes⟩ := context
  unfold validateClaims
  cases requiredString payload "iss" with
  | error error => simp
  | ok issuer =>
      by_cases issued : issuer = settings.authIssuer
      swap
      · simp [issued]
      cases audienceMatches (payload.lookup "aud") settings.authAudience with
      | false => simp [issued]
      | true =>
          cases requiredInt payload "exp" with
          | error error => simp [issued]
          | ok expiry =>
              by_cases expired : expiry ≤ timestampSeconds now
              · simp [issued, expired]
              · have valid : timestampSeconds now < expiry := by omega
                cases requiredString payload "tenant_id" with
                | error error => simp [issued, expired]
                | ok tenant =>
                    cases requiredString payload "sub" with
                    | error error => simp [issued, expired]
                    | ok sub => simp [issued, expired, valid]

end Claims

/-! ## Tokens -/

section Tokens

variable {loads : Bytes → Except Exn Json} {mac : Mac} {settings : Settings} {now : DateTime}
variable {header payload : List (String × Json)}

/-- `json.loads` undoes `json.dumps` on this object. -/
def Undoes (loads : Bytes → Except Exn Json) (members : List (String × Json)) : Prop :=
  loads (encodeUtf8 (Json.object members).dumps) = .ok (.object members)

/-- What a token that can be read consists of. -/
structure ReadsAs (loads : Bytes → Except Exn Json) (token first second : String)
    (header payload : List (String × Json)) (signature : Bytes) : Prop where
  parts : ∃ third, Text.splitOn '.' token = [first, second, third] ∧
    base64urlDecode third = .ok signature
  header : ∃ document, base64urlDecode first = .ok document ∧ loads document = .ok (.object header)
  payload : ∃ document, base64urlDecode second = .ok document ∧ loads document = .ok (.object payload)

theorem unauthorizedOnValueError_eq_ok_iff {Value : Type} {message : String}
    {body : Except Exn Value} {value : Value} :
    unauthorizedOnValueError message body = .ok value ↔ body = .ok value := by
  unfold unauthorizedOnValueError
  split
  · simp
  · split <;> simp

theorem decodeParts_eq_ok_iff {first second third : String} {header payload : Json}
    {signature : Bytes} :
    decodeParts loads first second third = .ok (header, payload, signature) ↔
      (∃ document, base64urlDecode first = .ok document ∧ loads document = .ok header) ∧
        (∃ document, base64urlDecode second = .ok document ∧ loads document = .ok payload) ∧
        base64urlDecode third = .ok signature := by
  constructor
  · intro decoded
    obtain ⟨firstDocument, firstDecoded, decoded⟩ := bind_ok decoded
    obtain ⟨firstValue, firstLoaded, decoded⟩ := bind_ok decoded
    obtain ⟨secondDocument, secondDecoded, decoded⟩ := bind_ok decoded
    obtain ⟨secondValue, secondLoaded, decoded⟩ := bind_ok decoded
    obtain ⟨bytes, thirdDecoded, decoded⟩ := bind_ok decoded
    cases decoded
    exact ⟨⟨_, firstDecoded, firstLoaded⟩, ⟨_, secondDecoded, secondLoaded⟩, thirdDecoded⟩
  · rintro ⟨⟨_, firstDecoded, firstLoaded⟩, ⟨_, secondDecoded, secondLoaded⟩, thirdDecoded⟩
    simp [decodeParts, firstDecoded, firstLoaded, secondDecoded, secondLoaded, thirdDecoded]

theorem decodeTokenParts_eq_ok {token signed : String} {signature : Bytes}
    (decoded : decodeTokenParts loads token = .ok (header, payload, signed, signature)) :
    ∃ first second, signed = Text.join '.' [first, second] ∧
      ReadsAs loads token first second header payload signature := by
  unfold decodeTokenParts at decoded
  split at decoded
  · rename_i first second third parts
    obtain ⟨⟨headerValue, payloadValue, bytes⟩, readable, decoded⟩ := bind_ok decoded
    obtain ⟨readHeader, readPayload, readSignature⟩ :=
      decodeParts_eq_ok_iff.mp (unauthorizedOnValueError_eq_ok_iff.mp readable)
    dsimp only at decoded
    split at decoded
    · cases decoded
      exact ⟨first, second, rfl, ⟨third, parts, readSignature⟩, readHeader, readPayload⟩
    · cases decoded
  · cases decoded

theorem ReadsAs.decodeTokenParts {token first second : String} {signature : Bytes}
    (reads : ReadsAs loads token first second header payload signature) :
    EvaluationService.decodeTokenParts loads token =
      .ok (header, payload, Text.join '.' [first, second], signature) := by
  obtain ⟨⟨third, parts, readSignature⟩, readHeader, readPayload⟩ := reads
  have readable := decodeParts_eq_ok_iff.mpr ⟨readHeader, readPayload, readSignature⟩
  simp [EvaluationService.decodeTokenParts, parts, readable, unauthorizedOnValueError]

theorem validateDemoJwt_eq_ok {token : String} {context : RequestContext}
    (validated : validateDemoJwt loads mac token settings now = .ok context) :
    ∃ first second header payload signature message,
      ReadsAs loads token first second header payload signature ∧
        encodeAscii (Text.join '.' [first, second]) = .ok message ∧
        mac.verifies (encodeUtf8 settings.authDemoSecret) message signature = true ∧
        validateClaims settings now payload = .ok context := by
  obtain ⟨⟨header, payload, signed, signature⟩, decoded, validated⟩ := bind_ok validated
  obtain ⟨first, second, rfl, reads⟩ := decodeTokenParts_eq_ok decoded
  dsimp only at validated
  split at validated
  · cases validated
  · obtain ⟨message, encoded, validated⟩ := bind_ok validated
    split at validated
    · cases validated
    · rename_i verified
      refine ⟨first, second, header, payload, signature, message, reads, ?_, by simpa using verified,
        validated⟩
      revert encoded
      cases encodeAscii (Text.join '.' [first, second]) <;> simp [Except.mapError]

theorem getRequestContext_eq_ok {authorization : Option String} {context : Option RequestContext}
    (validated : getRequestContext loads mac settings now authorization = .ok context) :
    settings.authEnabled = false ∧ context = none ∨
      settings.authEnabled = true ∧ ∃ header ∈ authorization, ∃ token ∈ bearerToken? header,
        ∃ caller, validateDemoJwt loads mac token settings now = .ok caller ∧
          context = some caller := by
  unfold getRequestContext at validated
  cases enabled : settings.authEnabled with
  | false =>
      rw [enabled] at validated
      cases validated
      exact .inl ⟨rfl, rfl⟩
  | true =>
      rw [if_neg (by simp [enabled])] at validated
      cases authorization with
      | none => cases validated
      | some header =>
          cases bearer : bearerToken? header with
          | none =>
              simp only [bearer] at validated
              cases validated
          | some token =>
              simp only [bearer] at validated
              cases accepted : validateDemoJwt loads mac token settings now with
              | error error =>
                  rw [accepted] at validated
                  cases validated
              | ok caller =>
                  rw [accepted] at validated
                  cases validated
                  exact .inr ⟨rfl, header, rfl, token, bearer, caller, accepted, rfl⟩

theorem ReadsAs.validateDemoJwt {token first second : String} {signature message : Bytes}
    (reads : ReadsAs loads token first second header payload signature)
    (algorithm : (header.lookup "alg").bind Json.str? = some "HS256")
    (encoded : encodeAscii (Text.join '.' [first, second]) = .ok message)
    (verified : mac.verifies (encodeUtf8 settings.authDemoSecret) message signature = true) :
    EvaluationService.validateDemoJwt loads mac token settings now =
      validateClaims settings now payload := by
  simp [EvaluationService.validateDemoJwt, reads.decodeTokenParts, algorithm, encoded, verified,
    Except.mapError]

theorem not_mem_signingInput_parts {part : String}
    (member : part ∈ [base64urlEncode (encodeUtf8 (Json.object tokenHeader).dumps),
      base64urlEncode (encodeUtf8 (Json.object payload).dumps)]) : '.' ∉ part.toList := by
  intro dotted
  simp only [List.mem_cons, List.not_mem_nil, or_false] at member
  rcases member with rfl | rfl
  · exact (plain_base64urlEncode dotted).2 rfl
  · exact (plain_base64urlEncode dotted).2 rfl

theorem exists_encodeAscii_signingInput (payload : List (String × Json)) :
    ∃ message, encodeAscii (signingInput payload) = .ok message :=
  exists_encodeAscii_join (fun _ member => (plain_base64urlEncode member).1)
    fun _ member => (plain_base64urlEncode member).1

/-- The parts of a token are those of an issued one as soon as the signed bytes are: the
signature is taken over the encoded text, before anything is decoded. -/
theorem ReadsAs.payload_eq {token first second : String} {signature message : Bytes}
    {issued : List (String × Json)}
    (reads : ReadsAs loads token first second header payload signature)
    (presented : encodeAscii (Text.join '.' [first, second]) = .ok message)
    (signed : encodeAscii (signingInput issued) = .ok message)
    (undone : Undoes loads issued) :
    payload = issued := by
  obtain ⟨⟨third, parts, _⟩, _, document, decoded, loaded⟩ := reads
  have undotted : ∀ part ∈ [first, second], '.' ∉ part.toList := by
    intro part member
    have inToken : part ∈ Text.splitOn '.' token := by
      rw [parts]
      exact List.mem_append_left [third] member
    exact Text.not_mem_part inToken
  have same := Text.join_inj (by simp) (by simp) undotted (fun _ => not_mem_signingInput_parts)
    (encodeAscii_inj presented signed)
  simp only [List.cons.injEq, and_true] at same
  obtain ⟨_, rfl⟩ := same
  rw [base64urlDecode_encode] at decoded
  cases decoded
  rw [show loads _ = _ from undone] at loaded
  cases loaded
  rfl

/-! ## Tokens that the service creates -/

theorem join_join (separator : Char) (first second third : String) :
    Text.join separator [Text.join separator [first, second], third] =
      Text.join separator [first, second, third] := by
  simp [Text.join, List.intercalate]

theorem encodeDemoJwt_readsAs (mac : Mac) (secret : String) (payload : List (String × Json))
    (headerUndone : Undoes loads tokenHeader)
    (payloadUndone : Undoes loads payload) :
    ∃ token message, encodeDemoJwt mac payload secret = .ok token ∧
      encodeAscii (signingInput payload) = .ok message ∧
      ReadsAs loads token (base64urlEncode (encodeUtf8 (Json.object tokenHeader).dumps))
        (base64urlEncode (encodeUtf8 (Json.object payload).dumps)) tokenHeader payload
        (mac.digest (encodeUtf8 secret) message) := by
  obtain ⟨message, encoded⟩ := exists_encodeAscii_signingInput payload
  have created : encodeDemoJwt mac payload secret =
      .ok (Text.join '.' [signingInput payload,
        base64urlEncode (mac.digest (encodeUtf8 secret) message)]) := by
    simp [encodeDemoJwt, encoded]
  refine ⟨_, message, created, encoded, ⟨_, ?_, base64urlDecode_encode _⟩,
    ⟨_, base64urlDecode_encode _, headerUndone⟩, ⟨_, base64urlDecode_encode _, payloadUndone⟩⟩
  rw [signingInput, join_join]
  apply Text.splitOn_join (by simp)
  intro part member dotted
  simp only [List.mem_cons, List.not_mem_nil, or_false] at member
  rcases member with rfl | rfl | rfl
  all_goals exact (plain_base64urlEncode dotted).2 rfl

theorem mapM_str? (scopes : List String) : scopes.mapM (Json.str? ∘ Json.str) = some scopes := by
  induction scopes with
  | nil => rfl
  | cons scope rest ih => simp [Json.str?, ih]

theorem validateClaims_demoPayload {tenantId subject : String} (scopes : List String)
    (expiresDelta : Int) (issuedAt : DateTime) (issuer : settings.authIssuer ≠ "")
    (tenant : tenantId ≠ "") (named : subject ≠ "") :
    validateClaims settings now (demoPayload settings tenantId subject scopes expiresDelta issuedAt) =
      if timestampSeconds now < timestampSeconds (issuedAt + expiresDelta) then
        .ok ⟨tenantId, subject, scopes⟩
      else .error (.unauthorized "Token has expired.") := by
  generalize found : demoPayload settings tenantId subject scopes expiresDelta issuedAt = payload
  have issuerFound : requiredString payload "iss" = .ok settings.authIssuer := by
    simp [← found, demoPayload, requiredString_eq_ok_iff, issuer]
  have audienceFound : audienceMatches (payload.lookup "aud") settings.authAudience = true := by
    simp [← found, demoPayload, List.lookup_cons, audienceMatches]
  have expiryFound : requiredInt payload "exp" =
      .ok (timestampSeconds (issuedAt + expiresDelta)) := by
    simp [← found, demoPayload, requiredInt_eq_ok_iff, List.lookup_cons, Json.int?]
  have tenantFound : requiredString payload "tenant_id" = .ok tenantId := by
    simp [← found, demoPayload, requiredString_eq_ok_iff, List.lookup_cons, tenant]
  have subjectFound : requiredString payload "sub" = .ok subject := by
    simp [← found, demoPayload, requiredString_eq_ok_iff, List.lookup_cons, named]
  have scopesFound : tokenScopes payload = scopes := by
    simp [← found, demoPayload, tokenScopes, List.lookup_cons, mapM_str?]
  split
  · rename_i valid
    exact validateClaims_eq_ok_iff.mpr ⟨issuerFound, audienceFound, ⟨_, expiryFound, valid⟩,
      tenantFound, subjectFound, scopesFound⟩
  · rename_i expired
    have reached : timestampSeconds (issuedAt + expiresDelta) ≤ timestampSeconds now := by omega
    simp [validateClaims, issuerFound, audienceFound, expiryFound, reached]

/-! ## Forgery -/

/-- `json.loads` on the documents of one token. -/
def loadsOnly (payload : List (String × Json)) (document : Bytes) : Except Exn Json :=
  if document = encodeUtf8 (Json.object tokenHeader).dumps then .ok (.object tokenHeader)
  else if document = encodeUtf8 (Json.object payload).dumps then .ok (.object payload)
  else .error (.other "JSONDecodeError")

/-- The claims of a token issued at the beginning of 2026 for one hour. -/
def demoClaims : List (String × Json) :=
  demoPayload { } "tenant-a" "user-1" ["evaluations:read"] 3600000000 1767225600000000

/-- The keyed hash of the signing input of `demoClaims` under the default secret. -/
def demoDigest : Bytes :=
  [144, 134, 121, 119, 49, 167, 180, 6, 54, 148, 54, 80, 195, 174, 172, 58, 90, 218, 75, 191, 2, 201,
    244, 216, 83, 242, 103, 21, 77, 121, 203, 187]

/-- A keyed hash that was only ever computed for `demoClaims`. -/
def demoMac : Mac where
  digest _ _ := demoDigest
  verifies _ message signature :=
    message == (signingInput demoClaims).toList.map Char.toUInt8 &&
      signature == demoDigest

theorem loadsOnly_header (payload : List (String × Json)) :
    Undoes (loadsOnly payload) tokenHeader :=
  if_pos rfl

theorem demoPayload_ne_tokenHeader (settings : Settings) (tenantId subject : String)
    (scopes : List String) (expiresDelta : Int) (issuedAt : DateTime) :
    encodeUtf8 (Json.object (demoPayload settings tenantId subject scopes expiresDelta issuedAt)).dumps ≠
      encodeUtf8 (Json.object tokenHeader).dumps := by
  have brace : String.utf8EncodeChar '\x7b' = [123] := by decide
  have mark : String.utf8EncodeChar '"' = [34] := by decide
  have letterI : (Json.escape 'i').toList.flatMap String.utf8EncodeChar = [105] := by decide
  have letterA : (Json.escape 'a').toList.flatMap String.utf8EncodeChar = [97] := by decide
  intro same
  -- the first keys of the two objects differ in their first letter
  have third := congrArg (·[2]?) same
  simp [encodeUtf8, Json.dumps, demoPayload, Json.dumpsMembers, tokenHeader, Json.quote, brace, mark,
    letterI, letterA] at third

theorem loadsOnly_payload (settings : Settings) (tenantId subject : String) (scopes : List String)
    (expiresDelta : Int) (issuedAt : DateTime) :
    Undoes (loadsOnly (demoPayload settings tenantId subject scopes expiresDelta issuedAt))
      (demoPayload settings tenantId subject scopes expiresDelta issuedAt) := by
  rw [Undoes, loadsOnly, if_neg (demoPayload_ne_tokenHeader _ _ _ _ _ _), if_pos rfl]

theorem audienceMatches_iff {value : Option Json} {expected : String} :
    audienceMatches value expected = true ↔ value = some (.str expected) ∨
      ∃ items, value = some (.array items) ∧ .str expected ∈ items := by
  unfold audienceMatches
  split
  · simp
  · rename_i items
    simp only [List.any_eq_true, beq_iff_eq, Option.some.injEq, reduceCtorEq, Json.array.injEq,
      false_or, exists_eq_left']
    constructor
    · rintro ⟨item, member, found⟩
      cases item <;> simp only [Json.str?, reduceCtorEq, Option.some.injEq] at found
      exact found ▸ member
    · intro member
      exact ⟨_, member, rfl⟩
  · rename_i notText notList
    simp only [Bool.false_eq_true, false_iff]
    rintro (rfl | ⟨items, rfl, _⟩)
    · exact notText _ rfl
    · exact notList _ rfl

/-- Every context that a token yields was issued: it is read from a payload that was signed. -/
theorem no_forged_identity (loads : Bytes → Except Exn Json) (mac : Mac) (secret : String)
    (issued : Set (List (String × Json)))
    (undone : ∀ payload ∈ issued, Undoes loads payload)
    (unforgeable : ∀ message signature,
      mac.verifies (encodeUtf8 secret) message signature = true →
      ∃ payload ∈ issued, encodeAscii (signingInput payload) = .ok message ∧
        signature = mac.digest (encodeUtf8 secret) message)
    (settings : Settings) (keyed : settings.authDemoSecret = secret) (token : String) (now : DateTime)
    (context : RequestContext)
    (validated : validateDemoJwt loads mac token settings now = .ok context) :
    ∃ payload ∈ issued,
      payload.lookup "tenant_id" = some (.str context.tenantId) ∧
        payload.lookup "sub" = some (.str context.subject) ∧
        tokenScopes payload = context.scopes ∧
        payload.lookup "iss" = some (.str settings.authIssuer) ∧
        (payload.lookup "aud" = some (.str settings.authAudience) ∨
          ∃ items, payload.lookup "aud" = some (.array items) ∧ .str settings.authAudience ∈ items) ∧
        ∃ expiry, (payload.lookup "exp").bind Json.int? = some expiry ∧ now < expiry * 1000000 := by
  obtain ⟨first, second, header, payload, signature, message, reads, presented, verified, claims⟩ :=
    validateDemoJwt_eq_ok validated
  rw [keyed] at verified
  obtain ⟨signedPayload, member, signed, _⟩ := unforgeable message signature verified
  obtain rfl := reads.payload_eq presented signed (undone signedPayload member)
  obtain ⟨issuer, audience, ⟨expiry, expires, later⟩, tenant, subject, scopes⟩ :=
    validateClaims_eq_ok_iff.mp claims
  refine ⟨payload, member, (requiredString_eq_ok_iff.mp tenant).1,
    (requiredString_eq_ok_iff.mp subject).1, scopes, (requiredString_eq_ok_iff.mp issuer).1,
    audienceMatches_iff.mp audience, expiry, requiredInt_eq_ok_iff.mp expires,
    lt_of_timestampSeconds_lt later⟩

theorem no_forged_identity_one_token :
    ∃ token, encodeDemoJwt demoMac demoClaims "local-demo-secret" = .ok token ∧
      validateDemoJwt (loadsOnly demoClaims) demoMac token { } 1767225660000000 =
        .ok ⟨"tenant-a", "user-1", ["evaluations:read"]⟩ ∧
      ∃ payload ∈ ({demoClaims} : Set (List (String × Json))),
        payload.lookup "tenant_id" = some (.str "tenant-a") ∧
          tokenScopes payload = ["evaluations:read"] := by
  obtain ⟨token, message, created, encoded, reads⟩ :=
    encodeDemoJwt_readsAs demoMac "local-demo-secret" demoClaims (loadsOnly_header demoClaims)
      (loadsOnly_payload _ _ _ _ _ _)
  have signed := (encodeAscii_eq_ok_iff.mp encoded).2
  have validated : validateDemoJwt (loadsOnly demoClaims) demoMac token { } 1767225660000000 =
      .ok ⟨"tenant-a", "user-1", ["evaluations:read"]⟩ := by
    rw [reads.validateDemoJwt (by simp [tokenHeader, Json.str?]) encoded (by simp [demoMac, signed]),
      demoClaims, validateClaims_demoPayload _ _ _ (by decide) (by decide) (by decide),
      if_pos (by decide)]
  have unforgeable : ∀ presented signature,
      demoMac.verifies (encodeUtf8 "local-demo-secret") presented signature = true →
      ∃ payload ∈ ({demoClaims} : Set (List (String × Json))),
        encodeAscii (signingInput payload) = .ok presented ∧ signature = demoDigest := by
    intro presented signature verified
    obtain ⟨same, isDigest⟩ : presented = _ ∧ signature = demoDigest := by
      simpa [demoMac] using verified
    exact ⟨demoClaims, rfl, by rw [encoded, signed, same], isDigest⟩
  obtain ⟨payload, member, tenant, _, scopes, _⟩ :=
    no_forged_identity (loadsOnly demoClaims) demoMac "local-demo-secret" {demoClaims}
      (by rintro payload rfl; exact loadsOnly_payload _ _ _ _ _ _) unforgeable { } rfl token
      1767225660000000 _ validated
  exact ⟨token, created, validated, payload, member, tenant, scopes⟩

/-! ## Expiry -/

/-- A created token is accepted until its expiry second and refused from then on, in the whole
seconds that `int(instant.timestamp())` counts. -/
theorem token_round_trip (loads : Bytes → Except Exn Json) (digest : Bytes → Bytes → Bytes)
    (settings : Settings) (tenantId subject : String) (scopes : List String)
    (issuedAt : DateTime) (expiresDelta : Int) (now : DateTime)
    (issuer : settings.authIssuer ≠ "") (tenant : tenantId ≠ "") (named : subject ≠ "")
    (headerUndone : Undoes loads tokenHeader)
    (payloadUndone :
      Undoes loads (demoPayload settings tenantId subject scopes expiresDelta issuedAt)) :
    ∃ token, createDemoJwt (.exact digest) settings tenantId subject scopes expiresDelta issuedAt =
        .ok token ∧
      validateDemoJwt loads (.exact digest) token settings now =
        (if timestampSeconds now < timestampSeconds (issuedAt + expiresDelta) then
          .ok ⟨tenantId, subject, scopes⟩
        else .error (.unauthorized "Token has expired.")) ∧
      ∀ instant : Int, 0 ≤ instant → instant < 2 ^ 34 * 1000000 →
        timestampSeconds instant = instant / 1000000 := by
  obtain ⟨token, message, created, encoded, reads⟩ :=
    encodeDemoJwt_readsAs (.exact digest) settings.authDemoSecret _ headerUndone payloadUndone
  refine ⟨token, created, ?_, fun _ => timestampSeconds_eq_floor⟩
  rw [reads.validateDemoJwt (by simp [tokenHeader, Json.str?]) encoded (by simp [Mac.exact]),
    validateClaims_demoPayload scopes expiresDelta issuedAt issuer tenant named]

theorem token_round_trip_one_hour :
    ∃ token, createDemoJwt (.exact fun _ _ => demoDigest) { } "tenant-a" "user-1"
        ["evaluations:read"] 3600000000 1767225600000000 = .ok token ∧
      validateDemoJwt (loadsOnly demoClaims) (.exact fun _ _ => demoDigest) token { }
        1767229199999999 = .ok ⟨"tenant-a", "user-1", ["evaluations:read"]⟩ := by
  obtain ⟨token, created, validated, _⟩ :=
    token_round_trip (loadsOnly demoClaims) (fun _ _ => demoDigest) { } "tenant-a" "user-1"
      ["evaluations:read"] 1767225600000000 3600000000 1767229199999999 (by decide) (by decide)
      (by decide) (loadsOnly_header _) (loadsOnly_payload _ _ _ _ _ _)
  rw [if_pos (by decide)] at validated
  exact ⟨token, created, validated⟩

/-- The round trip with the seconds rounded down. -/
def RoundTripsInFloorSeconds : Prop :=
  ∀ (loads : Bytes → Except Exn Json) (digest : Bytes → Bytes → Bytes) (settings : Settings)
    (tenantId subject : String) (scopes : List String) (issuedAt : DateTime) (expiresDelta : Int)
    (now : DateTime), settings.authIssuer ≠ "" → tenantId ≠ "" → subject ≠ "" →
    Undoes loads tokenHeader →
    Undoes loads (demoPayload settings tenantId subject scopes expiresDelta issuedAt) →
    ∃ token, createDemoJwt (.exact digest) settings tenantId subject scopes expiresDelta issuedAt =
        .ok token ∧
      (now / 1000000 < (issuedAt + expiresDelta) / 1000000 →
        validateDemoJwt loads (.exact digest) token settings now = .ok ⟨tenantId, subject, scopes⟩) ∧
      ((issuedAt + expiresDelta) / 1000000 ≤ now / 1000000 →
        ∃ message, validateDemoJwt loads (.exact digest) token settings now =
          .error (.unauthorized message))

/-- Half a second before 1970 is in the second before it, but `int` makes it zero: a token that
then is issued for one second is refused at once. -/
theorem not_roundTripsInFloorSeconds : ¬ RoundTripsInFloorSeconds := by
  intro roundTrips
  let payload := demoPayload { } "tenant-a" "user-1" [] 1000000 (-500000)
  obtain ⟨token, created, accepted, _⟩ := roundTrips (loadsOnly payload) (fun _ _ => []) { }
    "tenant-a" "user-1" [] (-500000) 1000000 (-500000) (by decide) (by decide) (by decide)
    (loadsOnly_header _) (loadsOnly_payload _ _ _ _ _ _)
  obtain ⟨other, message, otherCreated, encoded, reads⟩ :=
    encodeDemoJwt_readsAs (.exact fun _ _ => []) "local-demo-secret" payload
      (loadsOnly_header payload) (loadsOnly_payload _ _ _ _ _ _)
  obtain rfl : other = token := Except.ok.inj (otherCreated.symm.trans created)
  have refused := accepted (by decide)
  rw [reads.validateDemoJwt (by simp [tokenHeader, Json.str?]) encoded (by simp [Mac.exact]),
    validateClaims_demoPayload _ _ _ (by decide) (by decide) (by decide), if_neg (by decide)] at refused
  cases refused

end Tokens

end EvaluationService
