import Mathlib
import Gateway.Jwt.Verification
import Gateway.Picojson.RoundTrip

/-! Tokens that the builder of the library signs are the ones that `verifyJwt` accepts. -/
namespace Gateway.Jwt

open Search Results OrderedMap

variable {hmac : Hmac} {clock : Clock} {order : List TimeClaim}
  {token secret requiredIssuer : Bytes} {d : Decoded} {b : Builder} {data : Bytes}

namespace Builder

theorem decodePart_encodePart (data : Bytes) : decodePart (encodePart data) = .ok data :=
  Alphabet.decode_pad_trim base64url data

theorem dot_not_mem_encodePart (data : Bytes) : 46 ∉ encodePart data := by
  rw [encodePart, Alphabet.trim_encode]
  exact fun h => absurd (Alphabet.mem_of_mem_text h) (by decide)

/-- A map of values that can be read stays one. -/
theorem setMember_parsed {depths : Nat} {claims : Claims} {id : Bytes} {c : Json}
    (h : Picojson.Parsed depths (.object claims)) (hc : Picojson.Parsed depths c) :
    Picojson.Parsed depths (.object (Picojson.setMember id c claims)) := by
  cases h with
  | object hkeys hmembers =>
    refine .object (set_sorted hkeys) ?_
    intro m hm
    rcases mem_set hm with rfl | hm
    · exact hc
    · exact hmembers m hm

theorem objHeader_parsed {depths : Nat} (h : Picojson.Parsed depths (.object b.headerClaims)) :
    Picojson.Parsed depths (.object b.objHeader) := by
  unfold objHeader
  split
  · exact h
  · exact setMember_parsed h (.string HS256)

/-- The algorithm is the one that was set, or the one that signs. -/
theorem objHeader_alg (b : Builder) :
    b.objHeader.lookup (ascii "alg") = some (.string HS256) ↔
      ∀ v, b.headerClaims.lookup (ascii "alg") = some v → v = .string HS256 := by
  unfold objHeader
  cases hl : b.headerClaims.lookup (ascii "alg") with
  | none =>
    simp [Picojson.setMember, lookup_set]
  | some v => simp [hl]

/-- The parts of a signed token. -/
theorem sign_eq (h : b.sign hmac secret = some (.ok token)) : ∃ header payload signature,
    Picojson.serialize (.object b.objHeader) = some header ∧
    Picojson.serialize (.object b.payloadClaims) = some payload ∧
    hmac secret (encodePart header ++ 46 :: encodePart payload) = some signature ∧
    token = encodePart header ++ 46 :: (encodePart payload ++ 46 :: encodePart signature) := by
  obtain ⟨header, hheader, h⟩ := Option.bind_eq_some_iff.mp h
  obtain ⟨payload, hpayload, h⟩ := Option.bind_eq_some_iff.mp h
  obtain ⟨signature, hsignature, htoken⟩ := bind_eq_ok.mp (Option.some.inj h)
  have hdot : ascii "." = [46] := by decide
  rw [hdot, List.append_assoc, List.singleton_append] at hsignature htoken
  unfold hs256Sign at hsignature
  split at hsignature
  · rename_i res hres
    cases hsignature
    cases htoken
    exact ⟨header, payload, _, hheader, hpayload, hres, by simp⟩
  · cases hsignature

/-- A signed token decodes to the claims that were set, and to its MAC. -/
theorem decodes_sign
    (hheader : Picojson.Parsed Picojson.DEFAULT_MAX_DEPTHS (.object b.headerClaims))
    (hpayload : Picojson.Parsed Picojson.DEFAULT_MAX_DEPTHS (.object b.payloadClaims))
    (hsign : b.sign hmac secret = some (.ok token)) :
    ∃ d, Decodes token d ∧ d.headerClaims = b.objHeader ∧ d.payloadClaims = b.payloadClaims ∧
      hmac secret d.signed = some d.signature := by
  obtain ⟨header, payload, signature, hh, hp, hs, rfl⟩ := sign_eq hsign
  exact ⟨{ token := _, header, headerBase64 := encodePart header, payload,
           payloadBase64 := encodePart payload, signature, signatureBase64 := encodePart signature,
           headerClaims := b.objHeader, payloadClaims := b.payloadClaims },
    ⟨rfl, rfl, dot_not_mem_encodePart header, dot_not_mem_encodePart payload,
      decodePart_encodePart header, decodePart_encodePart payload, decodePart_encodePart signature,
      Picojson.parse_of_parsed (objHeader_parsed hheader) hh, Picojson.parse_of_parsed hpayload hp⟩,
    rfl, rfl, hs⟩

/-- A token signed with the secret of the gateway is accepted exactly while its dates and its issuer
fit, and unless another algorithm was set; it gives the identity of the claims it was built from. -/
theorem sign_verifyJwt (hmac : Hmac) (clock : Clock) (order : List TimeClaim)
    (horder : order.Perm [.exp, .iat, .nbf]) (b : Builder)
    (hheader : Picojson.Parsed Picojson.DEFAULT_MAX_DEPTHS (.object b.headerClaims))
    (hpayload : Picojson.Parsed Picojson.DEFAULT_MAX_DEPTHS (.object b.payloadClaims))
    (secret requiredIssuer token : Bytes) (hsign : b.sign hmac secret = some (.ok token)) :
    ∃ info, verifyJwt (library hmac clock order) token secret requiredIssuer = .ok info ∧
      (info.ok = true ↔ secret ≠ [] ∧
        (∀ v, b.headerClaims.lookup (ascii "alg") = some v → v = .string HS256) ∧
        (∀ c, Timely clock b.payloadClaims c) ∧ Fresh clock b.payloadClaims ∧
        Issued requiredIssuer b.payloadClaims) ∧
      (info.ok = true → info = identity b.payloadClaims) := by
  obtain ⟨d, hd, hhead, hclaims, hmac'⟩ := decodes_sign hheader hpayload hsign
  have haccepted : Accepted hmac clock token secret requiredIssuer d ↔ secret ≠ [] ∧
      (∀ v, b.headerClaims.lookup (ascii "alg") = some v → v = .string HS256) ∧
      (∀ c, Timely clock b.payloadClaims c) ∧ Fresh clock b.payloadClaims ∧
      Issued requiredIssuer b.payloadClaims := by
    rw [← hclaims, ← b.objHeader_alg, ← hhead]
    constructor
    · rintro ⟨hsecret, -, ⟨halg, -, htimely⟩, hfresh, hissued⟩
      exact ⟨hsecret, halg, htimely, hfresh, hissued⟩
    · rintro ⟨hsecret, halg, htimely, hfresh, hissued⟩
      exact ⟨hsecret, hd, ⟨halg, hmac', htimely⟩, hfresh, hissued⟩
  rcases @verifyJwt_library_cases hmac clock order token secret requiredIssuer horder with
    ⟨d', hd', hres⟩ | ⟨hno, e, hres⟩
  · obtain rfl := hd'.decodes.unique hd
    exact ⟨_, hres, iff_of_true rfl (haccepted.mp hd'), fun _ => by rw [hclaims]⟩
  · refine ⟨_, hres, iff_of_false Bool.false_ne_true ?_, fun h => (Bool.false_ne_true h).elim⟩
    exact fun h => hno ⟨d, haccepted.mpr h⟩

def sampleBuilder : Builder :=
  (((({} : Builder).setHeaderClaim (ascii "typ") (.string (ascii "JWT"))).setPayloadClaim
    (ascii "sub") (.string (ascii "u1"))).setPayloadClaim (ascii "exp") (.int64 50)).setPayloadClaim
    (ascii "permissions") (.array [.string (ascii "users:read")])

theorem sampleBuilder_signs :
    sampleBuilder.sign sampleHmac (ascii "k") = some (.ok sampleToken) := by
  have hrun : (sampleBuilder.sign sampleHmac (ascii "k")).bind Except.toOption =
      some sampleToken := by
    decide +kernel
  obtain ⟨r, hs, hr⟩ := Option.bind_eq_some_iff.mp hrun
  rw [hs, toOption_eq_some.mp hr]

theorem sampleBuilder_verifies : ∃ info,
    verifyJwt (library sampleHmac sampleClock [.exp, .iat, .nbf]) sampleToken (ascii "k") [] =
      .ok info ∧ info.ok = true ∧ info = identity sampleBuilder.payloadClaims := by
  have hempty : Picojson.Parsed (99 + 1) (.object []) := .object sorted_nil (by simp)
  have hheader : Picojson.Parsed (99 + 1) (.object sampleBuilder.headerClaims) :=
    setMember_parsed hempty (.string _)
  have hpayload : Picojson.Parsed (99 + 1) (.object sampleBuilder.payloadClaims) :=
    setMember_parsed (setMember_parsed (setMember_parsed hempty (.string _))
      (.int64 (by decide) (by decide))) (.array (by simpa using .string _))
  obtain ⟨info, hinfo, hiff, hident⟩ := sign_verifyJwt sampleHmac sampleClock [.exp, .iat, .nbf]
    (by decide) sampleBuilder hheader hpayload (ascii "k") [] sampleToken sampleBuilder_signs
  have hdates : sampleBuilder.payloadClaims.lookup (ascii "exp") = some (.int64 50) ∧
      sampleBuilder.payloadClaims.lookup (ascii "iat") = none ∧
      sampleBuilder.payloadClaims.lookup (ascii "nbf") = none := by
    simp [sampleBuilder, setHeaderClaim, setPayloadClaim, Picojson.setMember, lookup_set, ascii]
  obtain ⟨hexp, hiat, hnbf⟩ := hdates
  have hok : info.ok = true := by
    refine hiff.mpr ⟨by decide, ?_, ?_, ?_, .inl rfl⟩
    · have halg : sampleBuilder.headerClaims.lookup (ascii "alg") = none := by
        simp [sampleBuilder, setHeaderClaim, setPayloadClaim, Picojson.setMember, lookup_set, ascii]
      intro v hv
      cases halg.symm.trans hv
    · intro c v hv
      cases c with
      | exp =>
        cases hexp.symm.trans hv
        exact ⟨50, rfl, by decide⟩
      | iat => cases hiat.symm.trans hv
      | nbf => cases hnbf.symm.trans hv
    · intro v hv
      cases hexp.symm.trans hv
      exact ⟨50, rfl, by decide⟩
  exact ⟨info, hinfo, hok, hident hok⟩

end Builder

end Gateway.Jwt
