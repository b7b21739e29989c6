import Mathlib
import Gateway.CheckToken

/-! What `verifyJwt` accepts and what it extracts, for every token and every claim. -/
namespace Gateway

variable {lib : JwtLibrary} {token secret requiredIssuer : Bytes} {d : DecodedJwt}

/-- A claim read as a string, empty when absent or of another type. -/
def stringClaim : Option Json → Bytes
  | some (.string s) => s
  | _ => []

/-- A claim read as a list of strings: the string elements of an array, or one string. -/
def stringListClaim : Option Json → List Bytes
  | some (.array items) => items.filterMap Json.string?
  | some (.string s) => [s]
  | _ => []

/-- `exp`, when present, is a number of seconds whose date has not passed. -/
def NotExpired (now : Int) (date : Int → Int) (d : DecodedJwt) : Prop :=
  ∀ v, d.payloadClaims[ascii "exp"]? = some v → ∃ t, v = .int64 t ∧ now ≤ date t

/-- The issuer is not enforced, or `iss` is that very string. -/
def IssuerMatches (requiredIssuer : Bytes) (d : DecodedJwt) : Prop :=
  requiredIssuer = [] ∨ d.payloadClaims[ascii "iss"]? = some (.string requiredIssuer)

/-- All that is asked of a token but for the date of `exp`, with the claims it decodes to. -/
structure Vetted (lib : JwtLibrary) (token secret requiredIssuer : Bytes)
    (d : DecodedJwt) : Prop where
  token_ne : token ≠ []
  secret_ne : secret ≠ []
  decoded : lib.decode token = .ok d
  verified : lib.verify secret d = .ok ()
  issuer : IssuerMatches requiredIssuer d

/-- What `verifyJwt` accepts: `exp` counts as it is converted. -/
structure ValidToken (lib : JwtLibrary) (token secret requiredIssuer : Bytes)
    (d : DecodedJwt) : Prop extends Vetted lib token secret requiredIssuer d where
  notExpired : NotExpired lib.now fromTimeT d

/-- What is to be accepted: `exp` counts as the date that it names. -/
structure Admissible (lib : JwtLibrary) (token secret requiredIssuer : Bytes)
    (d : DecodedJwt) : Prop extends Vetted lib token secret requiredIssuer d where
  notExpired : NotExpired lib.now (· * 1000000000) d

/-- The identity that the claims carry. -/
def identityOf (d : DecodedJwt) : AuthInfo where
  ok := true
  sub := stringClaim d.payloadClaims[ascii "sub"]?
  roles := stringListClaim d.payloadClaims[ascii "roles"]?
  permissions := stringListClaim d.payloadClaims[ascii "permissions"]?

theorem extractStringList_nil (d : DecodedJwt) (name : Bytes) :
    extractStringList d name [] = stringListClaim d.payloadClaims[name]? := by
  simp only [extractStringList, DecodedJwt.hasPayloadClaim, DecodedJwt.getPayloadClaim,
    Std.ExtTreeMap.contains_eq_isSome_getElem?]
  cases h : d.payloadClaims[name]? with
  | none => rfl
  | some v => cases v <;> simp [Json.asArray, Json.asString, stringListClaim]

theorem issuerOrEmpty_eq (d : DecodedJwt) :
    d.issuerOrEmpty = stringClaim d.payloadClaims[ascii "iss"]? := by
  simp only [DecodedJwt.issuerOrEmpty, DecodedJwt.getIssuer, DecodedJwt.getPayloadClaim]
  cases h : d.payloadClaims[ascii "iss"]? with
  | none => rfl
  | some v => cases v <;> rfl

theorem getSubject_cases (d : DecodedJwt) :
    d.getSubject = .ok (stringClaim d.payloadClaims[ascii "sub"]?) ∨
    ∃ e, d.getSubject = .error e ∧ stringClaim d.payloadClaims[ascii "sub"]? = [] := by
  simp only [DecodedJwt.getSubject, DecodedJwt.getPayloadClaim]
  cases h : d.payloadClaims[ascii "sub"]? with
  | none => exact Or.inr ⟨_, rfl, rfl⟩
  | some v =>
    cases v with
    | string s => exact Or.inl rfl
    | _ => exact Or.inr ⟨_, rfl, rfl⟩

/-- The issuer comparison of the source is the one of the specification. -/
theorem issuerMatches_iff :
    IssuerMatches requiredIssuer d ↔
      ¬ (requiredIssuer ≠ [] ∧ d.issuerOrEmpty ≠ requiredIssuer) := by
  rw [issuerOrEmpty_eq]
  by_cases hr : requiredIssuer = []
  · simp [IssuerMatches, hr]
  · simp only [IssuerMatches, hr, false_or, ne_eq, not_false_eq_true, true_and, not_not]
    cases h : d.payloadClaims[ascii "iss"]? with
    | none => simpa [stringClaim] using Ne.symm hr
    | some v => cases v <;> simp [stringClaim, Ne.symm hr]

/-- The explicit look at `exp` passes, finds the date in the past, or throws. -/
theorem expired_cases (lib : JwtLibrary) (d : DecodedJwt) :
    (NotExpired lib.now fromTimeT d ∧ d.expired lib = .ok false) ∨
    (¬ NotExpired lib.now fromTimeT d ∧
      (d.expired lib = .ok true ∨ d.expired lib = .error (.std badCast))) := by
  simp only [DecodedJwt.expired, DecodedJwt.hasPayloadClaim, DecodedJwt.getExpiresAt,
    DecodedJwt.getPayloadClaim, Std.ExtTreeMap.contains_eq_isSome_getElem?, NotExpired]
  cases h : d.payloadClaims[ascii "exp"]? with
  | none => simp
  | some v =>
    cases v with
    | int64 t =>
      by_cases ht : lib.now ≤ fromTimeT t
      · left
        exact ⟨fun v hv => ⟨t, (Option.some.inj hv).symm, ht⟩,
          congrArg Except.ok (decide_eq_false (by omega))⟩
      · right
        refine ⟨?_, Or.inl (congrArg Except.ok (decide_eq_true (by omega)))⟩
        intro hall
        obtain ⟨t', he, ht'⟩ := hall _ rfl
        cases he
        exact ht ht'
    | _ =>
      right
      refine ⟨?_, Or.inr rfl⟩
      intro hall
      obtain ⟨t', he, _⟩ := hall _ rfl
      cases he

/-- The `try` block fills in the identity, or leaves `info` empty up to an error text. -/
theorem verifyBlock_cases (token_ne : token ≠ []) (secret_ne : secret ≠ []) :
    (∃ d, ValidToken lib token secret requiredIssuer d ∧
      verifyBlock lib token secret requiredIssuer {} = (.ok (), identityOf d)) ∨
    ((¬ ∃ d, ValidToken lib token secret requiredIssuer d) ∧
      ((∃ e, e ≠ [] ∧
        verifyBlock lib token secret requiredIssuer {} = (.ok (), { error := e })) ∨
      ∃ e, verifyBlock lib token secret requiredIssuer {} = (.error (.std e), {}))) := by
  cases hd : lib.decode token with
  | error e =>
    right
    refine ⟨?_, Or.inr ⟨e, by simp [verifyBlock, hd]⟩⟩
    rintro ⟨d, hv⟩
    cases hd.symm.trans hv.decoded
  | ok d =>
    have only : ∀ d', ValidToken lib token secret requiredIssuer d' → d' = d := by
      intro d' hv
      cases hd.symm.trans hv.decoded
      rfl
    cases hver : lib.verify secret d with
    | error e =>
      right
      refine ⟨?_, Or.inr ⟨e, by simp [verifyBlock, hd, hver]⟩⟩
      rintro ⟨d', hv⟩
      obtain rfl := only d' hv
      cases hver.symm.trans hv.verified
    | ok u =>
      rcases expired_cases lib d with ⟨hfresh, he⟩ | ⟨hold, he⟩
      · by_cases hiss : IssuerMatches requiredIssuer d
        · left
          refine ⟨d, ⟨⟨token_ne, secret_ne, hd, hver, hiss⟩, hfresh⟩, ?_⟩
          rcases getSubject_cases d with hsub | ⟨e, hsub, hempty⟩
          · simp only [verifyBlock, hd, hver, he, if_neg (issuerMatches_iff.mp hiss), hsub,
              extractStringList_nil, identityOf]
          · simp only [verifyBlock, hd, hver, he, if_neg (issuerMatches_iff.mp hiss), hsub,
              extractStringList_nil, identityOf, hempty]
        · right
          constructor
          · rintro ⟨d', hv⟩
            obtain rfl := only d' hv
            exact hiss hv.issuer
          · left
            refine ⟨ascii "issuer mismatch", by decide, ?_⟩
            simp only [verifyBlock, hd, hver, he,
              if_pos (not_not.mp fun h => hiss (issuerMatches_iff.mpr h))]
      · right
        constructor
        · rintro ⟨d', hv⟩
          obtain rfl := only d' hv
          exact hold hv.notExpired
        · rcases he with he | he
          · exact Or.inl
              ⟨ascii "token expired", by decide, by simp only [verifyBlock, hd, hver, he]⟩
          · exact Or.inr ⟨badCast, by simp only [verifyBlock, hd, hver, he]⟩

/-- Nothing is thrown; the result is the identity of a valid token, or a bare error text. -/
theorem verifyJwt_cases (lib : JwtLibrary) (token secret requiredIssuer : Bytes) :
    (∃ d, ValidToken lib token secret requiredIssuer d ∧
      verifyJwt lib token secret requiredIssuer = .ok (identityOf d)) ∨
    ((¬ ∃ d, ValidToken lib token secret requiredIssuer d) ∧
      ∃ e, e ≠ [] ∧ verifyJwt lib token secret requiredIssuer = .ok { error := e }) := by
  by_cases ht : token = []
  · right
    exact ⟨fun ⟨d, hv⟩ => hv.token_ne ht, ascii "empty token", by decide, by simp [verifyJwt, ht]⟩
  · by_cases hs : secret = []
    · right
      exact ⟨fun ⟨d, hv⟩ => hv.secret_ne hs, ascii "JWT_SECRET is not set, fail closed.",
        by decide, by simp [verifyJwt, ht, hs]⟩
    · have hcases := @verifyBlock_cases lib token secret requiredIssuer ht hs
      rcases hcases with
        ⟨d, hv, hb⟩ | ⟨hno, ⟨e, he, hb⟩ | ⟨e, hb⟩⟩
      · exact Or.inl ⟨d, hv, by simp [verifyJwt, ht, hs, hb]⟩
      · exact Or.inr ⟨hno, e, he, by simp [verifyJwt, ht, hs, hb]⟩
      · right
        refine ⟨hno, ?_⟩
        cases e with
        | tokenVerification what =>
          exact ⟨ascii "verification failed: " ++ what, by simp [ascii],
            by simp [verifyJwt, ht, hs, hb]⟩
        | other what =>
          exact ⟨ascii "decode error: " ++ what, by simp [ascii], by simp [verifyJwt, ht, hs, hb]⟩

/-- What `verifyJwt` promises: it never throws, accepts exactly the admissible tokens, and returns
the identity of the one it accepts, and no part of an identity with a refusal. -/
def FailsClosed (lib : JwtLibrary) (token secret requiredIssuer : Bytes) : Prop :=
  ∃ info, verifyJwt lib token secret requiredIssuer = .ok info ∧
    (info.ok = true ↔ ∃ d, Admissible lib token secret requiredIssuer d) ∧
    (info.ok = true → ∀ d, lib.decode token = .ok d →
      info.sub = stringClaim d.payloadClaims[ascii "sub"]? ∧
      info.roles = stringListClaim d.payloadClaims[ascii "roles"]? ∧
      info.permissions = stringListClaim d.payloadClaims[ascii "permissions"]?) ∧
    (info.ok = false →
      info.sub = [] ∧ info.roles = [] ∧ info.permissions = [] ∧ info.error ≠ [])

/-- All of the promise is kept but for the dates. -/
theorem failsClosed_iff_agree : FailsClosed lib token secret requiredIssuer ↔
    ((∃ d, ValidToken lib token secret requiredIssuer d) ↔
      ∃ d, Admissible lib token secret requiredIssuer d) := by
  rcases verifyJwt_cases lib token secret requiredIssuer with ⟨d, hv, hr⟩ | ⟨hno, e, he, hr⟩
  · constructor
    · rintro ⟨info, hinfo, hiff, -⟩
      obtain rfl := Except.ok.inj (hr.symm.trans hinfo)
      exact (iff_of_true rfl ⟨d, hv⟩).symm.trans hiff
    · intro hagree
      refine ⟨identityOf d, hr, (iff_of_true rfl ⟨d, hv⟩).trans hagree, ?_, nofun⟩
      intro _ d' hd'
      cases hv.decoded.symm.trans hd'
      exact ⟨rfl, rfl, rfl⟩
  · constructor
    · rintro ⟨info, hinfo, hiff, -⟩
      obtain rfl := Except.ok.inj (hr.symm.trans hinfo)
      exact (iff_of_false Bool.false_ne_true hno).symm.trans hiff
    · intro hagree
      exact ⟨{ error := e }, hr, (iff_of_false Bool.false_ne_true hno).trans hagree, nofun,
        fun _ => ⟨rfl, rfl, rfl, he⟩⟩

/-- The conversion moves the date to the other side of the present. -/
def Misdated (now t : Int) : Prop := ¬ (now ≤ fromTimeT t ↔ now ≤ t * 1000000000)

/-- A date within 292 years of 1970 is converted to itself. -/
theorem fromTimeT_of_le {t : Int} (hlow : -9223372036 ≤ t) (hhigh : t ≤ 9223372036) :
    fromTimeT t = t * 1000000000 :=
  Int.bmod_eq_of_le (by omega) (by omega)

theorem notExpired_int64 {now t : Int} {date : Int → Int}
    (h : d.payloadClaims[ascii "exp"]? = some (.int64 t)) :
    NotExpired now date d ↔ now ≤ date t := by
  simp [NotExpired, h]

/-- Both ways to read `exp` agree where no date is moved. -/
theorem notExpired_iff {now : Int}
    (h : ∀ t, d.payloadClaims[ascii "exp"]? = some (.int64 t) → ¬ Misdated now t) :
    NotExpired now fromTimeT d ↔ NotExpired now (· * 1000000000) d := by
  unfold NotExpired
  refine forall_congr' fun v => forall_congr' fun hv => exists_congr fun t => ?_
  refine and_congr_right ?_
  rintro rfl
  exact not_not.mp (h t hv)

/-- `verifyJwt` keeps its promise exactly unless a token that fits otherwise has an `exp` that the
conversion moves to the other side of the present, which no date within 292 years of 1970 is. -/
theorem failsClosed_iff (lib : JwtLibrary) (token secret requiredIssuer : Bytes) :
    (FailsClosed lib token secret requiredIssuer ↔
      ¬ ∃ d t, Vetted lib token secret requiredIssuer d ∧
        d.payloadClaims[ascii "exp"]? = some (.int64 t) ∧ Misdated lib.now t) ∧
    ∀ t, -9223372036 ≤ t → t ≤ 9223372036 → ¬ Misdated lib.now t := by
  refine ⟨?_, ?_⟩
  · rw [failsClosed_iff_agree]
    constructor
    · rintro hagree ⟨d, t, hvetted, hexp, hmisdated⟩
      -- a token decodes in one way only, so both sides speak of `d`
      have hvalid : (∃ d, ValidToken lib token secret requiredIssuer d) ↔
          lib.now ≤ fromTimeT t := by
        rw [← notExpired_int64 hexp]
        constructor
        · rintro ⟨d', hd'⟩
          cases hvetted.decoded.symm.trans hd'.decoded
          exact hd'.notExpired
        · exact fun h => ⟨d, hvetted, h⟩
      have hadmissible : (∃ d, Admissible lib token secret requiredIssuer d) ↔
          lib.now ≤ t * 1000000000 := by
        rw [← (notExpired_int64 hexp : NotExpired lib.now (· * 1000000000) d ↔ _)]
        constructor
        · rintro ⟨d', hd'⟩
          cases hvetted.decoded.symm.trans hd'.decoded
          exact hd'.notExpired
        · exact fun h => ⟨d, hvetted, h⟩
      exact hmisdated (hvalid.symm.trans (hagree.trans hadmissible))
    · intro hno
      have hdated : ∀ d, Vetted lib token secret requiredIssuer d →
          (NotExpired lib.now fromTimeT d ↔ NotExpired lib.now (· * 1000000000) d) := by
        intro d hd
        exact notExpired_iff fun t ht hmisdated => hno ⟨d, t, hd, ht, hmisdated⟩
      constructor
      · rintro ⟨d, hd⟩
        exact ⟨d, hd.toVetted, (hdated d hd.toVetted).mp hd.notExpired⟩
      · rintro ⟨d, hd⟩
        exact ⟨d, hd.toVetted, (hdated d hd.toVetted).mpr hd.notExpired⟩
  · intro t hlow hhigh hmisdated
    rw [Misdated, fromTimeT_of_le hlow hhigh] at hmisdated
    exact hmisdated Iff.rfl

end Gateway
