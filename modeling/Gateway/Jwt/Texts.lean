import Mathlib
import Gateway.Jwt.Token
import Gateway.Jwt.Verification

/-! What the exceptions of the token library say, and what an accepted token is made of. -/
namespace Gateway.Jwt

open Search Results

/-- The texts of the exceptions that are thrown on the way to an identity. -/
def exceptionTexts : List Bytes :=
  [ascii "invalid token supplied", ascii "Invalid input: not within alphabet",
    ascii "Invalid input: too much fill", ascii "Invalid input: incorrect total size",
    ascii "invalid json", ascii "", ascii "claim not found", ascii "std::bad_cast",
    ascii "wrong algorithm", ascii "hmac failed", ascii "invalid signature", ascii "token expired"]

/-- The errors of `verifyJwt`. -/
def verifyErrors : List Bytes :=
  [[], ascii "empty token", ascii "JWT_SECRET is not set, fail closed.", ascii "token expired",
    ascii "issuer mismatch"] ++
  exceptionTexts.map (ascii "verification failed: " ++ ·) ++
  exceptionTexts.map (ascii "decode error: " ++ ·)

def what : StdException → Bytes
  | .tokenVerification what => what
  | .other what => what

/-- An exception with a text that was written beforehand. -/
def Fixed (e : StdException) : Prop := what e ∈ exceptionTexts

instance (e : StdException) : Decidable (Fixed e) := inferInstanceAs (Decidable (_ ∈ _))

/-- A computation that throws nothing but fixed texts. -/
abbrev Speaks {α : Type} (x : Except StdException α) : Prop := Meets Fixed (fun _ => True) x

variable {α β : Type} {A : Alphabet} {hmac : Hmac} {clock : Clock} {order : List TimeClaim}
  {d : Decoded}

theorem Speaks.bind {x : Except StdException α} {f : α → Except StdException β} (hx : Speaks x)
    (hf : ∀ a, Speaks (f a)) : Speaks (x >>= f) := meets_bind hx fun a _ => hf a

theorem Speaks.ite {p : Prop} [Decidable p] {x y : Except StdException α} (hx : Speaks x)
    (hy : Speaks y) : Speaks (if p then x else y) := by
  split
  · exact hx
  · exact hy

theorem getSextet_speaks (c : UInt8) : Speaks (A.getSextet c) := by
  rw [Alphabet.getSextet]
  cases A.data.idxOf? c with
  | none => exact (by decide : Fixed (runtimeError "Invalid input: not within alphabet"))
  | some i => trivial

theorem stripFill_speaks (base : Bytes) (fillCnt : Nat) : Speaks (A.stripFill base fillCnt) := by
  induction hk : 2 - fillCnt using Nat.strong_induction_on generalizing base fillCnt with
  | _ k ih =>
    rw [Alphabet.stripFill]
    refine .ite (.ite ?_ trivial) trivial
    split
    · exact (by decide : Fixed (runtimeError "Invalid input: too much fill"))
    · exact ih _ (by omega) _ _ rfl

theorem decodeTail_speaks (fillCnt : Nat) (tail : Bytes) : Speaks (A.decodeTail fillCnt tail) := by
  unfold Alphabet.decodeTail
  split
  · exact .bind (getSextet_speaks _) fun _ => .bind (getSextet_speaks _) fun _ =>
      .bind (getSextet_speaks _) fun _ => trivial
  · exact .bind (getSextet_speaks _) fun _ => .bind (getSextet_speaks _) fun _ => trivial
  · trivial

theorem decodeGroups_speaks (fillCnt : Nat) (base : Bytes) :
    Speaks (A.decodeGroups fillCnt base) := by
  induction base using Alphabet.decodeGroups.induct with
  | case1 a b c d rest ih =>
    rw [Alphabet.decodeGroups]
    exact .bind (getSextet_speaks _) fun _ => .bind (getSextet_speaks _) fun _ =>
      .bind (getSextet_speaks _) fun _ => .bind (getSextet_speaks _) fun _ =>
      .bind ih fun _ => trivial
  | case2 tail hne =>
    rw [Alphabet.decodeGroups]
    · exact decodeTail_speaks fillCnt tail
    · exact hne

theorem decodePart_speaks (str : Bytes) : Speaks (decodePart str) := by
  rw [decodePart, Alphabet.decode]
  refine .bind (stripFill_speaks _ _) fun p => .ite ?_ (decodeGroups_speaks _ _)
  exact (by decide : Fixed (runtimeError "Invalid input: incorrect total size"))

theorem parseClaims_speaks (str : Bytes) : Speaks (parseClaims str) := by
  rw [parseClaims]
  split
  · trivial
  · exact (by decide : Fixed badCast)
  · exact (by decide : Fixed (.other (ascii "")))
  · exact (by decide : Fixed (runtimeError "invalid json"))

theorem decode_speaks (token : Bytes) : Speaks (decode token) := by
  have hinvalid : Fixed invalidToken := by decide
  rw [decode]
  split
  · exact hinvalid
  · split
    · exact hinvalid
    · exact .bind (decodePart_speaks _) fun _ => .bind (decodePart_speaks _) fun _ =>
        .bind (decodePart_speaks _) fun _ => .bind (parseClaims_speaks _) fun _ =>
        .bind (parseClaims_speaks _) fun _ => trivial

theorem getClaim_speaks (claims : Claims) (name : Bytes) : Speaks (getClaim claims name) := by
  rw [getClaim]
  split
  · trivial
  · exact (by decide : Fixed claimNotPresent)

theorem check_speaks (claim : TimeClaim) : Speaks (claim.check clock d) := by
  rw [TimeClaim.check]
  refine .ite (.bind ?_ fun date => .ite ?_ trivial) trivial
  · refine .bind (getClaim_speaks _ _) fun v => ?_
    split
    · trivial
    · exact (by decide : Fixed badCast)
  · exact (by decide : Fixed tokenExpired)

theorem checkClaims_speaks (order : List TimeClaim) : Speaks (checkClaims clock d order) := by
  induction order with
  | nil => trivial
  | cons claim order ih => exact .bind (check_speaks claim) fun _ => ih

theorem hs256Verify_speaks (secret data signature : Bytes) :
    Speaks (hs256Verify hmac secret data signature) := by
  refine .bind ?_ fun res => .ite trivial ?_
  · rw [hs256Sign]
    split
    · trivial
    · exact (by decide : Fixed (.other (ascii "hmac failed")))
  · exact (by decide : Fixed (.other (ascii "invalid signature")))

theorem getAlgorithm_speaks : Speaks d.getAlgorithm := by
  refine .bind (getClaim_speaks _ _) fun v => ?_
  split
  · trivial
  · exact (by decide : Fixed badCast)

theorem verify_speaks (secret : Bytes) : Speaks (verify hmac clock order secret d) := by
  have hwrong : Fixed (.tokenVerification (ascii "wrong algorithm")) := by decide
  refine .bind getAlgorithm_speaks fun algo => .ite hwrong ?_
  exact .bind (hs256Verify_speaks _ _ _) fun _ => checkClaims_speaks order

/-- The error that `verifyJwt` makes of an exception. -/
def caught : StdException → Bytes
  | .tokenVerification what => ascii "verification failed: " ++ what
  | .other what => ascii "decode error: " ++ what

theorem caught_mem {e : StdException} (h : Fixed e) : caught e ∈ verifyErrors := by
  cases e with
  | tokenVerification text =>
    exact List.mem_append_left _ (List.mem_append_right _ (List.mem_map_of_mem h))
  | other text => exact List.mem_append_right _ (List.mem_map_of_mem h)

theorem library_speaks (token secret : Bytes) :
    Speaks ((library hmac clock order).decode token) ∧
      ∀ d, Speaks ((library hmac clock order).verify secret d) :=
  ⟨.bind (decode_speaks token) fun _ => trivial,
    fun _ => .bind (decode_speaks _) fun _ => verify_speaks secret⟩

/-- The `try` block is left with an error that is known, or with an exception that speaks. -/
theorem verifyBlock_error (token secret requiredIssuer : Bytes) :
    (∃ info, verifyBlock (library hmac clock order) token secret requiredIssuer {} =
      (.ok (), info) ∧ info.error ∈ verifyErrors) ∨
    ∃ e info, verifyBlock (library hmac clock order) token secret requiredIssuer {} =
      (.error (.std e), info) ∧ Fixed e := by
  obtain ⟨hdecode, hverify⟩ := @library_speaks hmac clock order token secret
  rw [verifyBlock]
  cases hd : (library hmac clock order).decode token with
  | error e => exact .inr ⟨e, _, rfl, hdecode.of_error hd⟩
  | ok d =>
    dsimp only
    cases hv : (library hmac clock order).verify secret d with
    | error e => exact .inr ⟨e, _, rfl, (hverify d).of_error hv⟩
    | ok u =>
      dsimp only
      rcases expired_cases (library hmac clock order) d with ⟨-, he⟩ | ⟨-, he | he⟩
      · rw [he]
        dsimp only
        split
        · exact .inl ⟨_, rfl, by decide⟩
        · refine .inl ⟨_, rfl, ?_⟩
          cases d.getSubject <;> exact (by decide : ([] : Bytes) ∈ verifyErrors)
      · rw [he]
        exact .inl ⟨_, rfl, by decide⟩
      · rw [he]
        exact .inr ⟨_, _, rfl, by decide⟩

/-- Whatever is wrong with a token, the error is one of the texts that were written beforehand. -/
theorem verifyJwt_error {token secret requiredIssuer : Bytes} {info : AuthInfo}
    (h : verifyJwt (library hmac clock order) token secret requiredIssuer = .ok info) :
    info.error ∈ verifyErrors := by
  rw [verifyJwt] at h
  split at h
  · cases h
    decide
  · split at h
    · cases h
      decide
    · rcases @verifyBlock_error hmac clock order token secret requiredIssuer with
        ⟨info', hblock, herror⟩ | ⟨e, info', hblock, hfixed⟩
      · rw [hblock] at h
        cases h
        exact herror
      · rw [hblock] at h
        cases e with
        | tokenVerification text =>
          cases h
          exact caught_mem hfixed
        | other text =>
          cases h
          exact caught_mem hfixed

theorem prefix_pad (A : Alphabet) (s : Bytes) : s <+: A.pad s := by
  rw [Alphabet.pad]
  split
  · exact List.prefix_append s _
  · exact List.prefix_append s _
  · exact List.prefix_append s _
  · exact List.prefix_refl s

/-- What is decoded holds no byte but those of the alphabet and of the fill. -/
theorem not_mem_of_decodePart {s bin : Bytes} {c : UInt8} (h : decodePart s = .ok bin)
    (hdata : c ∉ base64url.data) (hfill : c ∉ base64url.fill) : c ∉ s := by
  obtain ⟨t, -, hpad, hletters⟩ := Alphabet.decode_ok h
  intro hmem
  have hc : c ∈ base64url.pad s := (prefix_pad base64url s).subset hmem
  rw [hpad] at hc
  rcases List.mem_append.mp hc with hc | hc
  · exact hdata (hletters c hc)
  · obtain ⟨f, hf, hc⟩ := List.mem_flatten.mp hc
    rw [(List.mem_replicate.mp hf).2] at hc
    exact hfill hc

/-- A token that was accepted is one line. -/
theorem token_unbroken {token secret requiredIssuer : Bytes} {info : AuthInfo}
    (h : verifyJwt (library hmac clock order) token secret requiredIssuer = .ok info)
    (hok : info.ok = true) : LF ∉ token := by
  rcases verifyJwt_cases (library hmac clock order) token secret requiredIssuer with
    ⟨j, hvalid, -⟩ | ⟨-, e, -, hres⟩
  · obtain ⟨d, hd, -⟩ := library_decode_eq_ok.mp hvalid.decoded
    have hpart : ∀ {s bin : Bytes}, decodePart s = .ok bin → LF ∉ s := fun hs =>
      not_mem_of_decodePart hs (by decide) (by decide)
    have hdot : LF ≠ 46 := by decide
    rw [hd.parts]
    simp [hpart hd.header, hpart hd.payload, hpart hd.signature, hdot]
  · rw [hres] at h
    cases h
    cases hok

end Gateway.Jwt
