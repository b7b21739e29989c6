import Mathlib
import Gateway.Jwt.Token
import Gateway.Picojson.Values
import Gateway.VerifyJwt

/-! Which tokens `verifyJwt` accepts over the library it is linked with. -/
namespace Gateway.Jwt

open Search Results OrderedMap

variable {hmac : Hmac} {clock : Clock} {order : List TimeClaim}
  {token secret requiredIssuer name s res sig : Bytes} {d : Decoded} {claims : Claims} {v : Json}
  {claim : TimeClaim}

theorem getClaim_eq_ok : getClaim claims name = .ok v ↔ claims.lookup name = some v := by
  unfold getClaim
  cases claims.lookup name <;> simp

theorem parseClaims_eq_ok :
    parseClaims s = .ok claims ↔ Picojson.parse s = .ok (.object claims) := by
  unfold parseClaims
  split <;> simp_all

/-- The claims are kept in the order of their names. -/
theorem parseClaims_sorted (h : parseClaims s = .ok claims) : Sorted compare claims := by
  have hparsed := Picojson.parse_parsed (parseClaims_eq_ok.mp h)
  generalize Picojson.DEFAULT_MAX_DEPTHS = depths at hparsed
  cases hparsed with
  | object hkeys _ => exact hkeys

/-- A token is decoded from three parts between dots, each in base64url, the first two of which
are JSON objects. -/
structure Decodes (token : Bytes) (d : Decoded) : Prop where
  token_eq : d.token = token
  parts : token = d.headerBase64 ++ 46 :: (d.payloadBase64 ++ 46 :: d.signatureBase64)
  header_free : 46 ∉ d.headerBase64
  payload_free : 46 ∉ d.payloadBase64
  header : decodePart d.headerBase64 = .ok d.header
  payload : decodePart d.payloadBase64 = .ok d.payload
  signature : decodePart d.signatureBase64 = .ok d.signature
  headerClaims : Picojson.parse d.header = .ok (.object d.headerClaims)
  payloadClaims : Picojson.parse d.payload = .ok (.object d.payloadClaims)

theorem decode_eq_ok : decode token = .ok d ↔ Decodes token d := by
  constructor
  · intro h
    unfold decode at h
    split at h
    · cases h
    · rename_i h64 rest hcut
      split at h
      · cases h
      · rename_i p64 s64 hcut'
        obtain ⟨header, hheader, h⟩ := bind_eq_ok.mp h
        obtain ⟨payload, hpayload, h⟩ := bind_eq_ok.mp h
        obtain ⟨signature, hsignature, h⟩ := bind_eq_ok.mp h
        obtain ⟨hclaims, hhclaims, h⟩ := bind_eq_ok.mp h
        obtain ⟨pclaims, hpclaims, h⟩ := bind_eq_ok.mp h
        cases h
        obtain ⟨rfl, hfree⟩ := cut_singleton.mp hcut
        obtain ⟨rfl, hfree'⟩ := cut_singleton.mp hcut'
        exact ⟨rfl, rfl, hfree, hfree', hheader, hpayload, hsignature,
          parseClaims_eq_ok.mp hhclaims, parseClaims_eq_ok.mp hpclaims⟩
  · intro h
    obtain ⟨rfl, hparts, hfree, hfree', hheader, hpayload, hsignature, hhclaims, hpclaims⟩ := h
    have hcut := cut_singleton.mpr ⟨hparts, hfree⟩
    have hcut' : cut [46] (d.payloadBase64 ++ 46 :: d.signatureBase64) =
        some (d.payloadBase64, d.signatureBase64) := cut_singleton.mpr ⟨rfl, hfree'⟩
    simp only [decode, hcut, hcut', hheader, hpayload, hsignature, parseClaims_eq_ok.mpr hhclaims,
      parseClaims_eq_ok.mpr hpclaims, bind, Except.bind, pure, Except.pure]

theorem getAlgorithm_eq_ok : d.getAlgorithm = .ok s ↔
    d.headerClaims.lookup (ascii "alg") = some (.string s) := by
  rw [Decoded.getAlgorithm, bind_eq_ok]
  constructor
  · rintro ⟨v, hv, h⟩
    cases v with
    | string a =>
      cases h
      exact getClaim_eq_ok.mp hv
    | _ => cases h
  · intro h
    exact ⟨_, getClaim_eq_ok.mpr h, rfl⟩

/-- The loop over the shorter text and the look at the sizes compare the texts. -/
theorem matched_iff : matched res sig = true ↔ res = sig := by
  induction res generalizing sig with
  | nil =>
    cases sig <;> simp [matched]
  | cons c res ih =>
    cases sig with
    | nil => simp [matched]
    | cons e sig =>
      have htail : matched (c :: res) (e :: sig) = (c == e && matched res sig) := by
        simp [matched, Bool.and_assoc]
      rw [htail, Bool.and_eq_true, ih, beq_iff_eq, List.cons.injEq]

theorem hs256Verify_eq_ok {data : Bytes} :
    hs256Verify hmac secret data sig = .ok () ↔ hmac secret data = some sig := by
  rw [hs256Verify, bind_eq_ok]
  unfold hs256Sign
  cases hmac secret data with
  | none => simp
  | some res =>
    simp only [Except.ok.injEq, exists_eq_left', Option.some.injEq]
    rw [← matched_iff]
    cases matched res sig <;> simp [pure, Except.pure]

/-- A claim that is absent, or a date that the clock allows. -/
def Timely (clock : Clock) (claims : Claims) (claim : TimeClaim) : Prop :=
  ∀ v, claims.lookup claim.name = some v →
    ∃ n, v = .int64 n ∧ claim.untimely clock (fromTimeT n) = false

theorem check_eq_ok : claim.check clock d = .ok () ↔ Timely clock d.payloadClaims claim := by
  unfold TimeClaim.check Timely Decoded.hasPayloadClaim Decoded.getDate getClaim
  cases hl : d.payloadClaims.lookup claim.name with
  | none => simp [pure, Except.pure]
  | some v =>
    simp only [Option.isSome_some, if_true, Option.some.injEq, forall_eq']
    cases v with
    | int64 n =>
      simp only [bind, Except.bind, pure, Except.pure, Json.int64.injEq, exists_eq_left']
      cases claim.untimely clock (fromTimeT n) <;> simp
    | _ => simp [bind, Except.bind]

theorem checkClaims_eq_ok :
    checkClaims clock d order = .ok () ↔ ∀ c ∈ order, Timely clock d.payloadClaims c := by
  induction order with
  | nil => simp [checkClaims, pure, Except.pure]
  | cons c order ih =>
    rw [checkClaims, bind_eq_ok, List.forall_mem_cons, ← ih, ← check_eq_ok]
    constructor
    · rintro ⟨⟨⟩, hc, h⟩
      exact ⟨hc, h⟩
    · rintro ⟨hc, h⟩
      exact ⟨(), hc, h⟩

/-- The text that is signed. -/
def Decoded.signed (d : Decoded) : Bytes := d.headerBase64 ++ 46 :: d.payloadBase64

/-- What `verify` asks of a token that was decoded. -/
structure Verified (hmac : Hmac) (clock : Clock) (secret : Bytes) (d : Decoded) : Prop where
  alg : d.headerClaims.lookup (ascii "alg") = some (.string HS256)
  mac : hmac secret d.signed = some d.signature
  timely : ∀ c, Timely clock d.payloadClaims c

theorem verify_eq_ok (horder : order.Perm [.exp, .iat, .nbf]) :
    verify hmac clock order secret d = .ok () ↔ Verified hmac clock secret d := by
  have hall : (∀ c ∈ order, Timely clock d.payloadClaims c) ↔
      ∀ c, Timely clock d.payloadClaims c := by
    constructor
    · intro h c
      apply h
      rw [horder.mem_iff]
      cases c <;> simp
    · exact fun h c _ => h c
  have hdata : d.headerBase64 ++ ascii "." ++ d.payloadBase64 = d.signed := by
    simp [Decoded.signed, ascii]
  rw [verify, hdata, bind_eq_ok]
  constructor
  · rintro ⟨algo, halgo, h⟩
    split at h
    · cases h
    · rename_i halg
      obtain rfl := not_not.mp halg
      obtain ⟨⟨⟩, hmac, h⟩ := bind_eq_ok.mp h
      exact ⟨getAlgorithm_eq_ok.mp halgo, hs256Verify_eq_ok.mp hmac,
        hall.mp (checkClaims_eq_ok.mp h)⟩
  · rintro ⟨halg, hmac, htimely⟩
    refine ⟨HS256, getAlgorithm_eq_ok.mpr halg, ?_⟩
    rw [if_neg (by simp)]
    exact bind_eq_ok.mpr ⟨(), hs256Verify_eq_ok.mpr hmac, checkClaims_eq_ok.mpr (hall.mpr htimely)⟩

/-- `exp`, if there is one, has not passed either when `verifyJwt` looks again. -/
def Fresh (clock : Clock) (claims : Claims) : Prop :=
  ∀ v, claims.lookup (ascii "exp") = some v → ∃ n, v = .int64 n ∧ clock.now ≤ fromTimeT n

/-- The issuer is not enforced, or is the one that the claims name. -/
def Issued (requiredIssuer : Bytes) (claims : Claims) : Prop :=
  requiredIssuer = [] ∨ claims.lookup (ascii "iss") = some (.string requiredIssuer)

/-- The identity that the claims carry. -/
def identity (claims : Claims) : AuthInfo where
  ok := true
  sub := stringClaim (claims.lookup (ascii "sub"))
  roles := stringListClaim (claims.lookup (ascii "roles"))
  permissions := stringListClaim (claims.lookup (ascii "permissions"))

/-- All that is asked of a token, in terms of its text and its MAC. -/
structure Accepted (hmac : Hmac) (clock : Clock) (token secret requiredIssuer : Bytes)
    (d : Decoded) : Prop where
  secret_ne : secret ≠ []
  decodes : Decodes token d
  verified : Verified hmac clock secret d
  fresh : Fresh clock d.payloadClaims
  issued : Issued requiredIssuer d.payloadClaims

theorem getElem?_payloadClaims (h : Decodes token d) (name : Bytes) :
    d.toDecodedJwt.payloadClaims[name]? = d.payloadClaims.lookup name :=
  getElem?_ofList (parseClaims_sorted (parseClaims_eq_ok.mpr h.payloadClaims)) name

theorem library_decode_eq_ok {j : DecodedJwt} : (library hmac clock order).decode token = .ok j ↔
    ∃ d, Decodes token d ∧ j = d.toDecodedJwt := by
  change (decode token >>= fun d => .ok d.toDecodedJwt) = .ok j ↔ _
  simp only [bind_eq_ok, decode_eq_ok, Except.ok.injEq, @eq_comm _ j]

theorem identityOf_toDecodedJwt (h : Decodes token d) :
    identityOf d.toDecodedJwt = identity d.payloadClaims := by
  simp only [identityOf, identity, getElem?_payloadClaims h]

theorem Decodes.unique {d' : Decoded} (h : Decodes token d) (h' : Decodes token d') : d = d' := by
  have heq := (decode_eq_ok.mpr h).symm.trans (decode_eq_ok.mpr h')
  cases heq
  rfl

/-- What `verifyJwt` asks of any library comes down to the text and the MAC for this one. -/
theorem validToken_iff (horder : order.Perm [.exp, .iat, .nbf]) {j : DecodedJwt} :
    ValidToken (library hmac clock order) token secret requiredIssuer j ↔
      ∃ d, j = d.toDecodedJwt ∧ Accepted hmac clock token secret requiredIssuer d := by
  constructor
  · rintro ⟨⟨-, secret_ne, decoded, verified, issuer⟩, notExpired⟩
    obtain ⟨d, hd, rfl⟩ := library_decode_eq_ok.mp decoded
    obtain ⟨d', hd', hverify⟩ := bind_eq_ok.mp verified
    obtain rfl : d = d' := by
      rw [Decoded.toDecodedJwt, hd.token_eq] at hd'
      exact hd.unique (decode_eq_ok.mp hd')
    refine ⟨d, rfl, secret_ne, hd, (verify_eq_ok horder).mp hverify, ?_, ?_⟩
    · simp only [NotExpired, getElem?_payloadClaims hd] at notExpired
      exact notExpired
    · simp only [IssuerMatches, getElem?_payloadClaims hd] at issuer
      exact issuer
  · rintro ⟨d, rfl, secret_ne, hd, hverified, fresh, issued⟩
    refine ⟨⟨?_, secret_ne, library_decode_eq_ok.mpr ⟨d, hd, rfl⟩, ?_, ?_⟩, ?_⟩
    · rw [hd.parts]
      simp
    · refine bind_eq_ok.mpr ⟨d, ?_, (verify_eq_ok horder).mpr hverified⟩
      rw [Decoded.toDecodedJwt, hd.token_eq]
      exact decode_eq_ok.mpr hd
    · simp only [IssuerMatches, getElem?_payloadClaims hd]
      exact issued
    · simp only [NotExpired, getElem?_payloadClaims hd]
      exact fresh

/-- The result is the identity of an accepted token, or a bare error text. -/
theorem verifyJwt_library_cases (horder : order.Perm [.exp, .iat, .nbf]) :
    (∃ d, Accepted hmac clock token secret requiredIssuer d ∧
      verifyJwt (library hmac clock order) token secret requiredIssuer =
        .ok (identity d.payloadClaims)) ∨
    ((¬ ∃ d, Accepted hmac clock token secret requiredIssuer d) ∧ ∃ e,
      verifyJwt (library hmac clock order) token secret requiredIssuer = .ok { error := e }) := by
  rcases verifyJwt_cases (library hmac clock order) token secret requiredIssuer with
    ⟨j, hvalid, hres⟩ | ⟨hno, e, -, hres⟩
  · obtain ⟨d, rfl, hd⟩ := (validToken_iff horder).mp hvalid
    exact .inl ⟨d, hd, by rw [hres, identityOf_toDecodedJwt hd.decodes]⟩
  · refine .inr ⟨?_, e, hres⟩
    rintro ⟨d, hd⟩
    exact hno ⟨_, (validToken_iff horder).mpr ⟨d, rfl, hd⟩⟩

/-- Over the linked library a token is accepted exactly if its three parts decode, its header names
HS256, its signature is the MAC of the text before it, and its dates and its issuer fit, in whatever
order the dates are looked at; its payload alone decides the identity. -/
theorem verifyJwt_accepts (hmac : Hmac) (clock : Clock) (order : List TimeClaim)
    (horder : order.Perm [.exp, .iat, .nbf]) (token secret requiredIssuer : Bytes) :
    ∃ info, verifyJwt (library hmac clock order) token secret requiredIssuer = .ok info ∧
      (info.ok = true ↔ ∃ d, Accepted hmac clock token secret requiredIssuer d) ∧
      ∀ d, Accepted hmac clock token secret requiredIssuer d → info = identity d.payloadClaims := by
  rcases @verifyJwt_library_cases hmac clock order token secret requiredIssuer horder with
    ⟨d, hd, hres⟩ | ⟨hno, e, hres⟩
  · refine ⟨_, hres, iff_of_true rfl ⟨d, hd⟩, ?_⟩
    intro d' hd'
    rw [hd.decodes.unique hd'.decodes]
  · refine ⟨_, hres, iff_of_false Bool.false_ne_true hno, ?_⟩
    intro d hd
    exact (hno ⟨d, hd⟩).elim

/-- The text that is signed in the sample token. -/
def sampleText : Bytes :=
  ascii "eyJhbGciOiJIUzI1NiIsInR5cCI6IkpXVCJ9." ++
    ascii "eyJleHAiOjUwLCJwZXJtaXNzaW9ucyI6WyJ1c2VyczpyZWFkIl0sInN1YiI6InUxIn0"

/-- The same with a date in the year 1677. -/
def misdatedText : Bytes :=
  ascii "eyJhbGciOiJIUzI1NiIsInR5cCI6IkpXVCJ9." ++
    ascii "eyJleHAiOi05MjIzMzcyMDM3LCJwZXJtaXNzaW9ucyI6WyJ1c2VyczpyZWFkIl0sInN1YiI6InUxIn0"

/-- HMAC-SHA256 where the sample tokens ask for it. -/
def sampleHmac : Hmac := fun key data =>
  if key = ascii "k" ∧ data = sampleText then
    some [124, 152, 70, 215, 52, 247, 24, 248, 172, 250, 217, 252, 233, 124, 242, 131,
      143, 73, 174, 226, 124, 187, 244, 75, 121, 18, 245, 17, 135, 51, 16, 134]
  else if key = ascii "k" ∧ data = misdatedText then
    some [228, 92, 104, 207, 175, 208, 112, 241, 149, 234, 34, 191, 225, 124, 251, 17,
      77, 42, 250, 88, 149, 185, 180, 47, 52, 126, 26, 234, 79, 151, 212, 248]
  else none

def sampleToken : Bytes := sampleText ++ ascii ".fJhG1zT3GPis-tn86Xzyg49JruJ8u_RLeRL1EYczEIY"

def misdatedToken : Bytes := misdatedText ++ ascii ".5Fxoz6_QcPGV6iK_4Xz7EU0q-liVubQvNH4a6k-X1Pg"

/-- Another last letter, for the same bytes. -/
def alteredToken : Bytes := sampleToken.dropLast ++ ascii "Z"

def sampleClock : Clock := { verifiedAt := 40000000000, now := 41000000000 }

/-- What the sample tokens carry. -/
def sampleIdentity : AuthInfo where
  ok := true
  sub := ascii "u1"
  permissions := [ascii "users:read"]

theorem sample_runs : ∀ order ∈ [[TimeClaim.nbf, .iat, .exp], [.exp, .iat, .nbf]],
    ∀ t ∈ [sampleToken, alteredToken],
      verifyJwt (library sampleHmac sampleClock order) t (ascii "k") [] = .ok sampleIdentity := by
  have hruns : ∀ order ∈ [[TimeClaim.nbf, .iat, .exp], [.exp, .iat, .nbf]],
      ∀ t ∈ [sampleToken, alteredToken],
        (verifyJwt (library sampleHmac sampleClock order) t (ascii "k") []).toOption =
          some sampleIdentity := by
    decide +kernel
  exact fun order horder t ht => toOption_eq_some.mp (hruns order horder t ht)

theorem sampleToken_accepted : ∃ info,
    verifyJwt (library sampleHmac sampleClock [.nbf, .iat, .exp]) sampleToken (ascii "k") [] =
      .ok info ∧ info.sub = ascii "u1" ∧ info.permissions = [ascii "users:read"] ∧
      ∃ d, Accepted sampleHmac sampleClock sampleToken (ascii "k") [] d := by
  have hrun := sample_runs [.nbf, .iat, .exp] (by simp) sampleToken (by simp)
  obtain ⟨info, hinfo, hiff, -⟩ := verifyJwt_accepts sampleHmac sampleClock [.nbf, .iat, .exp]
    (by decide) sampleToken (ascii "k") []
  obtain rfl := Except.ok.inj (hrun.symm.trans hinfo)
  exact ⟨_, hinfo, rfl, rfl, hiff.mp rfl⟩

/-- A token that expired in 1677 is accepted. -/
theorem misdatedToken_accepted :
    (∃ info, verifyJwt (library sampleHmac sampleClock [.exp, .iat, .nbf]) misdatedToken
      (ascii "k") [] = .ok info ∧ info.ok = true ∧ info.sub = ascii "u1") ∧
    (∃ d, (library sampleHmac sampleClock [.exp, .iat, .nbf]).decode misdatedToken = .ok d ∧
      d.payloadClaims[ascii "exp"]? = some (.int64 (-9223372037))) ∧
    ¬ FailsClosed (library sampleHmac sampleClock [.exp, .iat, .nbf]) misdatedToken
      (ascii "k") [] := by
  obtain ⟨hrun, hdate⟩ : (verifyJwt (library sampleHmac sampleClock [.exp, .iat, .nbf])
      misdatedToken (ascii "k") []).toOption = some sampleIdentity ∧
      (((library sampleHmac sampleClock [.exp, .iat, .nbf]).decode misdatedToken).toOption.bind
        fun d => d.payloadClaims[ascii "exp"]?).bind (fun v => v.asInt.toOption) =
          some (-9223372037) := by
    decide +kernel
  obtain ⟨d, hd, hexp⟩ : ∃ d,
      (library sampleHmac sampleClock [.exp, .iat, .nbf]).decode misdatedToken = .ok d ∧
      d.payloadClaims[ascii "exp"]? = some (.int64 (-9223372037)) := by
    obtain ⟨v, hv, hn⟩ := Option.bind_eq_some_iff.mp hdate
    obtain ⟨d, hd, hv⟩ := Option.bind_eq_some_iff.mp hv
    refine ⟨d, toOption_eq_some.mp hd, hv.trans ?_⟩
    cases v with
    | int64 n => rw [Option.some.inj hn]
    | _ => cases hn
  have hinfo := toOption_eq_some.mp hrun
  refine ⟨⟨_, hinfo, rfl, rfl⟩, ⟨d, hd, hexp⟩, ?_⟩
  rintro ⟨info, hres, hiff, -⟩
  obtain rfl := Except.ok.inj (hinfo.symm.trans hres)
  obtain ⟨d', hd'⟩ := hiff.mp rfl
  cases hd.symm.trans hd'.decoded
  exact absurd ((notExpired_int64 hexp).mp hd'.notExpired) (by decide)

theorem Decodes.cut_signed (h : Decodes token d) :
    cut [46] d.signed = some (d.headerBase64, d.payloadBase64) :=
  cut_singleton.mpr ⟨rfl, h.header_free⟩

theorem Decodes.cut_twice (h : Decodes token d) :
    ((cut [46] token).bind fun p => (cut [46] p.2).map fun q => p.1 ++ 46 :: q.1) =
      some d.signed := by
  have hcut := cut_singleton.mpr ⟨h.parts, h.header_free⟩
  have hcut' : cut [46] (d.payloadBase64 ++ 46 :: d.signatureBase64) =
      some (d.payloadBase64, d.signatureBase64) := cut_singleton.mpr ⟨rfl, h.payload_free⟩
  rw [hcut, Option.bind_some, hcut']
  rfl

/-- The text that is signed decides the parts it was put together from. -/
theorem Decodes.signed_inj {token' : Bytes} {d' : Decoded} (h : Decodes token d)
    (h' : Decodes token' d') (heq : d.signed = d'.signed) :
    d.headerBase64 = d'.headerBase64 ∧ d.payloadBase64 = d'.payloadBase64 := by
  have hcut := h.cut_signed
  rw [heq, h'.cut_signed] at hcut
  simpa [eq_comm] using hcut

theorem Decodes.claims_eq {token' : Bytes} {d' : Decoded} (h : Decodes token d)
    (h' : Decodes token' d') (heq : d.payloadBase64 = d'.payloadBase64) :
    d.payloadClaims = d'.payloadClaims := by
  have hpayload := h.payload
  rw [heq, h'.payload] at hpayload
  have hclaims := h.payloadClaims
  rw [← Except.ok.inj hpayload, h'.payloadClaims] at hclaims
  exact (Json.object.inj (Except.ok.inj hclaims)).symm

/-- The signature part of 32 bytes is fixed by them up to its last letter. -/
theorem Decodes.signature_init (h : Decodes token d) (hlen : d.signature.length = 32) {init : Bytes}
    {m : UInt8} (htext : base64url.text d.signature = init ++ [m]) :
    ∃ l, d.signatureBase64 = init ++ [l] :=
  (Alphabet.decode_pad_ok h.signature rfl (by omega)).init_eq htext

/-- Two tokens that are accepted with the same text before the signature carry the same identity,
and are the same but for the last character. -/
theorem accepted_agree (hsize : ∀ key data res, hmac key data = some res → res.length = 32)
    {clock' : Clock} {token' requiredIssuer' : Bytes} {d' : Decoded}
    (h : Accepted hmac clock token secret requiredIssuer d)
    (h' : Accepted hmac clock' token' secret requiredIssuer' d') (heq : d.signed = d'.signed) :
    identity d.payloadClaims = identity d'.payloadClaims ∧
      ∃ init l l', token = init ++ [l] ∧ token' = init ++ [l'] := by
  obtain ⟨hheader, hpayload⟩ := h.decodes.signed_inj h'.decodes heq
  have hmac := h.verified.mac
  rw [heq, h'.verified.mac] at hmac
  have hsig : d.signature = d'.signature := (Option.some.inj hmac).symm
  have hlen : d.signature.length = 32 := hsize _ _ _ h.verified.mac
  have htextlen : (base64url.text d.signature).length = 43 := by
    rw [Alphabet.text_length, hlen]
  have hne : base64url.text d.signature ≠ [] := by
    intro hnil
    rw [hnil] at htextlen
    cases htextlen
  obtain ⟨init, m, htext⟩ : ∃ init m, base64url.text d.signature = init ++ [m] :=
    ⟨_, _, (List.dropLast_append_getLast hne).symm⟩
  obtain ⟨l, hl⟩ := h.decodes.signature_init hlen htext
  obtain ⟨l', hl'⟩ := h'.decodes.signature_init (hsig ▸ hlen) (hsig ▸ htext)
  refine ⟨by rw [h.decodes.claims_eq h'.decodes hpayload],
    d.headerBase64 ++ 46 :: (d.payloadBase64 ++ 46 :: init), l, l', ?_, ?_⟩
  · rw [h.decodes.parts, hl]
    simp
  · rw [h'.decodes.parts, ← hheader, ← hpayload, hl']
    simp

theorem sample_accepted : ∀ t ∈ [sampleToken, alteredToken],
    ∃ d, Accepted sampleHmac sampleClock t (ascii "k") [] d := by
  intro t ht
  have hrun := sample_runs [.exp, .iat, .nbf] (by simp) t ht
  rcases @verifyJwt_library_cases sampleHmac sampleClock [.exp, .iat, .nbf] t (ascii "k") []
    (by decide) with ⟨d, hd, -⟩ | ⟨-, e, hres⟩
  · exact ⟨d, hd⟩
  · cases hres.symm.trans hrun

theorem alteredToken_agrees : ∃ d d',
    Accepted sampleHmac sampleClock sampleToken (ascii "k") [] d ∧
    Accepted sampleHmac sampleClock alteredToken (ascii "k") [] d' ∧
    identity d.payloadClaims = identity d'.payloadClaims ∧
      ∃ init l l', sampleToken = init ++ [l] ∧ alteredToken = init ++ [l'] := by
  have hsize : ∀ key data res, sampleHmac key data = some res → res.length = 32 := by
    intro key data res h
    unfold sampleHmac at h
    split at h
    · cases h
      rfl
    · split at h
      · cases h
        rfl
      · cases h
  have hcut : (cut [46] sampleToken).bind (fun p => (cut [46] p.2).map fun q => p.1 ++ 46 :: q.1) =
      (cut [46] alteredToken).bind fun p => (cut [46] p.2).map fun q => p.1 ++ 46 :: q.1 := by
    decide +kernel
  obtain ⟨d, hd⟩ := sample_accepted sampleToken (by simp)
  obtain ⟨d', hd'⟩ := sample_accepted alteredToken (by simp)
  rw [hd.decodes.cut_twice, hd'.decodes.cut_twice] at hcut
  exact ⟨d, d', hd, hd', accepted_agree hsize hd hd' (Option.some.inj hcut)⟩

end Gateway.Jwt
