import EvaluationService.Core.AuthProperties

/-!
The spellings of a token. Encoding writes bytes in one way; decoding reads them from many,
because the decoder skips characters and drops bits. A signature covers the first two parts
of a token as they are spelled, and nothing covers the spelling of the third.
-/

set_option autoImplicit false

namespace EvaluationService

open Foundation

theorem isUrlsafe_of_mem {bytes : Bytes} {character : Char}
    (member : character ∈ (base64urlEncode bytes).toList) : Base64.isUrlsafe character = true := by
  obtain ⟨letters, _, _, stripped, within, _⟩ := Base64.withoutPadding_urlsafeEncode bytes
  rw [base64urlEncode, String.toList_ofList, stripped] at member
  obtain ⟨original, originalMember, rfl⟩ := List.mem_map.mp member
  exact Base64.isUrlsafe_toUrlsafe original (within original originalMember)

theorem splitOn_join_encoded {documents : List Bytes} (nonempty : documents ≠ []) :
    Text.splitOn '.' (Text.join '.' (documents.map base64urlEncode)) =
      documents.map base64urlEncode := by
  apply Text.splitOn_join
  · simpa using nonempty
  · intro part member dotted
    obtain ⟨bytes, _, rfl⟩ := List.mem_map.mp member
    exact (plain_base64urlEncode dotted).2 rfl

/-- Unpadded encoding loses nothing, has no character that needs escaping or separates parts,
and the parts of a token are found again at its dots. -/
structure Base64urlRoundTrips : Prop where
  decodes : ∀ bytes, base64urlDecode (base64urlEncode bytes) = .ok bytes
  characters : ∀ bytes, ∀ character ∈ (base64urlEncode bytes).toList,
    (character.isAlphanum = true ∨ character = '-' ∨ character = '_') ∧ character ≠ '.' ∧
      character ≠ '='
  parts : ∀ mac payload secret token, encodeDemoJwt mac payload secret = .ok token →
    ∃ message, encodeAscii (signingInput payload) = .ok message ∧
      Text.splitOn '.' token =
        [base64urlEncode (encodeUtf8 (Json.object tokenHeader).dumps),
          base64urlEncode (encodeUtf8 (Json.object payload).dumps),
          base64urlEncode (mac.digest (encodeUtf8 secret) message)]

theorem base64url_round_trips : Base64urlRoundTrips where
  decodes := base64urlDecode_encode
  characters := by
    intro bytes character member
    have plain := isUrlsafe_of_mem member
    refine ⟨by simpa [Base64.isUrlsafe, or_assoc] using plain, (plain_base64urlEncode member).2, ?_⟩
    rintro rfl
    revert plain
    decide
  parts := by
    intro mac payload secret token created
    obtain ⟨message, encoded⟩ := exists_encodeAscii_signingInput payload
    simp only [encodeDemoJwt, encoded, ok_bind, pure, Except.pure, Except.ok.injEq] at created
    refine ⟨message, encoded, ?_⟩
    rw [← created, signingInput, join_join]
    have found := @splitOn_join_encoded [encodeUtf8 (Json.object tokenHeader).dumps,
      encodeUtf8 (Json.object payload).dumps, mac.digest (encodeUtf8 secret) message] (by simp)
    simp only [List.map_cons, List.map_nil] at found
    exact found

/-! ## Signatures -/

section Spellings

variable (loads : Bytes → Except Exn Json) (digest : Bytes → Bytes → Bytes) (settings : Settings)
variable (now : DateTime)

def Accepts (token : String) : Prop :=
  ∃ context, validateDemoJwt loads (.exact digest) token settings now = .ok context

def signaturePart (token : String) : String := (Text.splitOn '.' token).getD 2 ""

/-- The tokens agree in their first two parts. -/
def SignsSame (token other : String) : Prop :=
  (Text.splitOn '.' token).take 2 = (Text.splitOn '.' other).take 2

/-- Letters, digits, `-` and `_` only, and no bits left over in the last of them. -/
def PlainSpelling (text : String) : Prop :=
  (∀ character ∈ text.toList, Base64.isUrlsafe character = true) ∧
    Base64.spareBits (text.toList.map Base64.ofUrlsafe) = 0

variable {loads digest settings now}

theorem plainSpelling_iff {text : String} {bytes : Bytes}
    (decoded : base64urlDecode text = .ok bytes) :
    text = base64urlEncode bytes ↔ PlainSpelling text := by
  have read : Base64.urlsafeDecode? (Base64.withPadding text.toList) = some bytes := by
    unfold base64urlDecode at decoded
    split at decoded
    · rename_i found
      rw [found, Except.ok.inj decoded]
    · cases decoded
  rw [PlainSpelling, ← Base64.withoutPadding_urlsafeEncode_eq_iff read, base64urlEncode,
    ← String.toList_inj, String.toList_ofList]
  exact eq_comm

theorem base64urlDecode_append_skipped (text : String) :
    base64urlDecode (text ++ "!!!!") = base64urlDecode text := by
  have marks : "!!!!".toList = ['!', '!', '!', '!'] := by decide
  rw [base64urlDecode, String.toList_append, marks, Base64.urlsafeDecode?_append_skipped]
  rfl

/-- The parts of an accepted token; its third part decodes to the keyed hash of the others. -/
theorem Accepts.parts {token : String} (accepted : Accepts loads digest settings now token) :
    ∃ first second third message, Text.splitOn '.' token = [first, second, third] ∧
      encodeAscii (Text.join '.' [first, second]) = .ok message ∧
      base64urlDecode third = .ok (digest (encodeUtf8 settings.authDemoSecret) message) := by
  obtain ⟨context, validated⟩ := accepted
  obtain ⟨first, second, _, _, signature, message, reads, encoded, verified, _⟩ :=
    validateDemoJwt_eq_ok validated
  obtain ⟨third, parts, decoded⟩ := reads.parts
  have signed : signature = digest (encodeUtf8 settings.authDemoSecret) message := by
    simpa [Mac.exact] using verified
  exact ⟨first, second, third, message, parts, encoded, signed ▸ decoded⟩

/-- Whether a token is accepted depends on its third part by what that decodes to. -/
theorem Accepts.respell {token first second third other : String}
    (accepted : Accepts loads digest settings now token)
    (parts : Text.splitOn '.' token = [first, second, third]) (undotted : '.' ∉ other.toList)
    (same : base64urlDecode other = base64urlDecode third) :
    Text.splitOn '.' (Text.join '.' [first, second, other]) = [first, second, other] ∧
      Accepts loads digest settings now (Text.join '.' [first, second, other]) := by
  have undottedParts : ∀ part ∈ [first, second, other], '.' ∉ part.toList := by
    intro part member
    simp only [List.mem_cons, List.not_mem_nil, or_false] at member
    rcases member with rfl | rfl | rfl
    · exact Text.not_mem_part (parts ▸ List.mem_cons_self)
    · exact Text.not_mem_part (parts ▸ List.mem_cons_of_mem _ List.mem_cons_self)
    · exact undotted
  have otherParts := Text.splitOn_join (by simp) undottedParts
  refine ⟨otherParts, ?_⟩
  obtain ⟨context, validated⟩ := accepted
  refine ⟨context, ?_⟩
  have decoded : decodeTokenParts loads (Text.join '.' [first, second, other]) =
      decodeTokenParts loads token := by
    simp only [decodeTokenParts, otherParts, parts, decodeParts, same]
  rw [validateDemoJwt, decoded]
  exact validated

/-- No other token is accepted for what this one signs. -/
def IsOnlySpelling (loads : Bytes → Except Exn Json) (digest : Bytes → Bytes → Bytes)
    (settings : Settings) (now : DateTime) (token : String) : Prop :=
  ∀ other, Accepts loads digest settings now other → SignsSame token other → token = other

/-- Whatever token is accepted, it is not the only one for what it signs. -/
theorem not_isOnlySpelling (loads : Bytes → Except Exn Json) (digest : Bytes → Bytes → Bytes)
    (settings : Settings) (now : DateTime) (token : String)
    (accepted : Accepts loads digest settings now token) :
    ¬ IsOnlySpelling loads digest settings now token := by
  intro only
  obtain ⟨first, second, third, _, parts, -, -⟩ := accepted.parts
  have undotted : '.' ∉ (third ++ "!!!!").toList := by
    have member : third ∈ Text.splitOn '.' token := by simp [parts]
    have inThird := Text.not_mem_part member
    simpa [String.toList_append] using inThird
  obtain ⟨otherParts, otherAccepted⟩ :=
    accepted.respell parts undotted (base64urlDecode_append_skipped third)
  have same := only _ otherAccepted (by rw [SignsSame, parts, otherParts]; rfl)
  rw [same, otherParts] at parts
  have thirds := congrArg (·.getD 2 "") parts
  have lengths := congrArg String.length thirds
  change (third ++ "!!!!").length = third.length at lengths
  rw [String.length_append] at lengths
  have marks : "!!!!".length = 4 := by decide
  omega

/-- Of the tokens that are accepted for a signed content exactly one has a plain signature. -/
theorem exists_unique_plain (loads : Bytes → Except Exn Json) (digest : Bytes → Bytes → Bytes)
    (settings : Settings) (now : DateTime) (token : String)
    (accepted : Accepts loads digest settings now token) :
    ∃! plain, Accepts loads digest settings now plain ∧ SignsSame token plain ∧
      PlainSpelling (signaturePart plain) := by
  obtain ⟨first, second, third, message, parts, encoded, decoded⟩ := accepted.parts
  generalize isSignature : digest (encodeUtf8 settings.authDemoSecret) message = signature at decoded
  have undotted : '.' ∉ (base64urlEncode signature).toList :=
    fun dotted => (plain_base64urlEncode dotted).2 rfl
  have same : base64urlDecode (base64urlEncode signature) = base64urlDecode third := by
    rw [base64urlDecode_encode, decoded]
  obtain ⟨plainParts, plainAccepted⟩ := accepted.respell parts undotted same
  have isPart : signaturePart (Text.join '.' [first, second, base64urlEncode signature]) =
      base64urlEncode signature := by
    rw [signaturePart, plainParts]
    rfl
  refine ⟨_, ⟨plainAccepted, by rw [SignsSame, parts, plainParts]; rfl, ?_⟩, ?_⟩
  · rw [isPart, ← plainSpelling_iff (base64urlDecode_encode signature)]
  · intro other given
    obtain ⟨otherAccepted, signs, otherPlain⟩ := given
    obtain ⟨otherFirst, otherSecond, otherThird, otherMessage, otherParts, otherEncoded,
      otherDecoded⟩ := otherAccepted.parts
    have otherPart : signaturePart other = otherThird := by rw [signaturePart, otherParts]; rfl
    rw [SignsSame, parts, otherParts] at signs
    simp only [List.take_succ_cons, List.take_zero, List.cons.injEq, and_true] at signs
    obtain ⟨rfl, rfl⟩ := signs
    obtain rfl := Except.ok.inj (encoded.symm.trans otherEncoded)
    rw [otherPart, ← plainSpelling_iff otherDecoded, isSignature] at otherPlain
    rw [← Text.join_splitOn '.' other, otherParts, otherPlain]

end Spellings

/-- The token of `demoClaims`. -/
def demoToken : String :=
  Text.join '.' [base64urlEncode (encodeUtf8 (Json.object tokenHeader).dumps),
    base64urlEncode (encodeUtf8 (Json.object demoClaims).dumps), base64urlEncode demoDigest]

theorem splitOn_demoToken : Text.splitOn '.' demoToken =
    [base64urlEncode (encodeUtf8 (Json.object tokenHeader).dumps),
      base64urlEncode (encodeUtf8 (Json.object demoClaims).dumps), base64urlEncode demoDigest] := by
  have found := @splitOn_join_encoded [encodeUtf8 (Json.object tokenHeader).dumps,
    encodeUtf8 (Json.object demoClaims).dumps, demoDigest] (by simp)
  simp only [List.map_cons, List.map_nil] at found
  exact found

theorem accepts_demoToken :
    Accepts (loadsOnly demoClaims) (fun _ _ => demoDigest) { } 1767225660000000 demoToken := by
  have reads : ReadsAs (loadsOnly demoClaims) demoToken _ _ tokenHeader demoClaims demoDigest :=
    ⟨⟨_, splitOn_demoToken, base64urlDecode_encode _⟩,
      ⟨_, base64urlDecode_encode _, loadsOnly_header demoClaims⟩,
      ⟨_, base64urlDecode_encode _, loadsOnly_payload _ _ _ _ _ _⟩⟩
  obtain ⟨message, encoded⟩ := exists_encodeAscii_signingInput demoClaims
  refine ⟨⟨"tenant-a", "user-1", ["evaluations:read"]⟩, ?_⟩
  rw [reads.validateDemoJwt (by simp [tokenHeader, Json.str?]) encoded (by simp [Mac.exact]),
    demoClaims, validateClaims_demoPayload _ _ _ (by decide) (by decide) (by decide),
    if_pos (by decide)]

/-- The demo token is accepted, with its plain signature, and is not the only one either. -/
theorem not_isOnlySpelling_demo :
    PlainSpelling (signaturePart demoToken) ∧
      ¬ IsOnlySpelling (loadsOnly demoClaims) (fun _ _ => demoDigest) { } 1767225660000000 demoToken := by
  refine ⟨?_, not_isOnlySpelling _ _ _ _ _ accepts_demoToken⟩
  have part : signaturePart demoToken = base64urlEncode demoDigest := by
    rw [signaturePart, splitOn_demoToken]
    rfl
  rw [part, ← plainSpelling_iff (base64urlDecode_encode demoDigest)]

/-- The demo token with marks after its signature, which the decoder skips. -/
def markedToken : String :=
  Text.join '.' [base64urlEncode (encodeUtf8 (Json.object tokenHeader).dumps),
    base64urlEncode (encodeUtf8 (Json.object demoClaims).dumps), base64urlEncode demoDigest ++ "!!!!"]

theorem accepts_markedToken : Text.splitOn '.' markedToken =
      [base64urlEncode (encodeUtf8 (Json.object tokenHeader).dumps),
        base64urlEncode (encodeUtf8 (Json.object demoClaims).dumps),
        base64urlEncode demoDigest ++ "!!!!"] ∧
    Accepts (loadsOnly demoClaims) (fun _ _ => demoDigest) { } 1767225660000000 markedToken :=
  accepts_demoToken.respell splitOn_demoToken (by decide) (base64urlDecode_append_skipped _)

theorem exists_unique_plain_marked :
    ∃! plain, Accepts (loadsOnly demoClaims) (fun _ _ => demoDigest) { } 1767225660000000 plain ∧
      SignsSame markedToken plain ∧ PlainSpelling (signaturePart plain) :=
  exists_unique_plain _ _ _ _ _ accepts_markedToken.2

/-- One token string for one signed content: every accepted token is the only one. -/
def AcceptsOneSpelling : Prop :=
  ∀ loads digest settings now token, Accepts loads digest settings now token →
    IsOnlySpelling loads digest settings now token

/-- The decoder skips the marks after the signature. -/
theorem not_acceptsOneSpelling : ¬ AcceptsOneSpelling := by
  intro oneSpelling
  obtain ⟨markedParts, accepted⟩ := accepts_markedToken
  have same := oneSpelling _ _ _ _ _ accepts_demoToken _ accepted
    (by rw [SignsSame, splitOn_demoToken, markedParts]; rfl)
  rw [← same, splitOn_demoToken] at markedParts
  have thirds := congrArg (fun parts => (parts.getD 2 "").length) markedParts
  revert thirds
  decide

end EvaluationService
