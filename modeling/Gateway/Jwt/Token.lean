import Mathlib
import Gateway.Jwt.Base
import Gateway.Picojson

/-! Tokens as the vendored jwt-cpp (jwt.h) decodes, verifies and signs them, for HS256. -/
namespace Gateway.Jwt

open Search Results

/-- `picojson::object` under the interface of `map_of_claims`. -/
abbrev Claims := List (Bytes × Json)

/-- `claim_not_present_exception`. -/
def claimNotPresent : StdException := .other (ascii "claim not found")

/-- `get_claim` of `map_of_claims`. -/
def getClaim (claims : Claims) (name : Bytes) : Except StdException Json :=
  match claims.lookup name with
  | some v => .ok v
  | none => .error claimNotPresent

/-- `parse_claims`; an infinite number throws through the parser. -/
def parseClaims (str : Bytes) : Except StdException Claims :=
  match Picojson.parse str with
  | .ok (.object members) => .ok members
  | .ok _ => .error badCast
  | .error .overflow => .error (.other (ascii ""))
  | .error _ => .error (runtimeError "invalid json")

/-- `decoded_jwt`. -/
structure Decoded where
  token : Bytes
  header : Bytes
  headerBase64 : Bytes
  payload : Bytes
  payloadBase64 : Bytes
  signature : Bytes
  signatureBase64 : Bytes
  headerClaims : Claims
  payloadClaims : Claims

/-- The function that `decoded_jwt` decodes each part with. -/
def decodePart (str : Bytes) : Except StdException Bytes := base64url.decode (base64url.pad str)

def invalidToken : StdException := .other (ascii "invalid token supplied")

/-- The constructor of `decoded_jwt`, which cuts the token at its first two dots. -/
def decode (token : Bytes) : Except StdException Decoded :=
  match cut [46] token with
  | none => .error invalidToken
  | some (headerBase64, rest) =>
    match cut [46] rest with
    | none => .error invalidToken
    | some (payloadBase64, signatureBase64) => do
      let header ← decodePart headerBase64
      let payload ← decodePart payloadBase64
      let signature ← decodePart signatureBase64
      let headerClaims ← parseClaims header
      let payloadClaims ← parseClaims payload
      return { token, header, headerBase64, payload, payloadBase64, signature, signatureBase64,
               headerClaims, payloadClaims }

def Decoded.getAlgorithm (d : Decoded) : Except StdException Bytes := do
  match ← getClaim d.headerClaims (ascii "alg") with
  | .string s => return s
  | _ => .error badCast

/-- `HMAC` of OpenSSL with SHA-256, by key and data; `none` where it returns no result. -/
abbrev Hmac := Bytes → Bytes → Option Bytes

def HS256 : Bytes := ascii "HS256"

/-- `hmacsha::sign`. -/
def hs256Sign (hmac : Hmac) (secret data : Bytes) : Except StdException Bytes :=
  match hmac secret data with
  | some res => .ok res
  | none => .error (.other (ascii "hmac failed"))

/-- The comparison loop of `hmacsha::verify`. -/
def matched (res signature : Bytes) : Bool :=
  (res.zip signature).all (fun p => p.1 == p.2) && res.length == signature.length

/-- `hmacsha::verify`. -/
def hs256Verify (hmac : Hmac) (secret data signature : Bytes) : Except StdException Unit := do
  let res ← hs256Sign hmac secret data
  if matched res signature then return () else .error (.other (ascii "invalid signature"))

/-- The readings of the system clock, in nanoseconds: `verifiedAt` in `verify`, `now` in the check
behind it. -/
structure Clock where
  verifiedAt : Int
  now : Int

/-- `as_date` of a payload claim. -/
def Decoded.getDate (d : Decoded) (name : Bytes) : Except StdException Int := do
  match ← getClaim d.payloadClaims name with
  | .int64 n => return fromTimeT n
  | _ => .error badCast

def Decoded.hasPayloadClaim (d : Decoded) (name : Bytes) : Bool :=
  (d.payloadClaims.lookup name).isSome

def tokenExpired : StdException := .tokenVerification (ascii "token expired")

/-- The keys of `claims` in a `verifier`. -/
inductive TimeClaim where
  | exp
  | iat
  | nbf
  deriving DecidableEq

def TimeClaim.name : TimeClaim → Bytes
  | .exp => ascii "exp"
  | .iat => ascii "iat"
  | .nbf => ascii "nbf"

/-- What is wrong with a date; the default leeway is zero. -/
def TimeClaim.untimely (clock : Clock) (date : Int) : TimeClaim → Bool
  | .exp => decide (clock.verifiedAt > date)
  | .iat => decide (clock.verifiedAt < date)
  | .nbf => decide (clock.verifiedAt < date)

/-- The function that `verifier` keeps under the key. -/
def TimeClaim.check (clock : Clock) (d : Decoded) (claim : TimeClaim) : Except StdException Unit :=
  if d.hasPayloadClaim claim.name then do
    let date ← d.getDate claim.name
    if claim.untimely clock date then .error tokenExpired else return ()
  else return ()

/-- The iteration over `claims`, an unordered map: the order is the standard library's. -/
def checkClaims (clock : Clock) (d : Decoded) : List TimeClaim → Except StdException Unit
  | [] => return ()
  | claim :: order => do
    claim.check clock d
    checkClaims clock d order

/-- `verifier::verify` where HS256 is the one algorithm allowed. -/
def verify (hmac : Hmac) (clock : Clock) (order : List TimeClaim) (secret : Bytes) (d : Decoded) :
    Except StdException Unit := do
  let data := d.headerBase64 ++ ascii "." ++ d.payloadBase64
  let algo ← d.getAlgorithm
  if algo ≠ HS256 then .error (.tokenVerification (ascii "wrong algorithm"))
  hs256Verify hmac secret data d.signature
  checkClaims clock d order

/-- What `verifyJwt` sees of a decoded token. -/
def Decoded.toDecodedJwt (d : Decoded) : DecodedJwt where
  token := d.token
  payloadClaims := Std.ExtTreeMap.ofList d.payloadClaims compare

/-- The library behind `verifyJwt`. The token decides all that `verify` reads. -/
def library (hmac : Hmac) (clock : Clock) (order : List TimeClaim) : JwtLibrary where
  decode token := do return (← decode token).toDecodedJwt
  verify secret d := do verify hmac clock order secret (← decode d.token)
  now := clock.now

/-- `builder`, whose claims are kept in maps. -/
structure Builder where
  headerClaims : Claims := []
  payloadClaims : Claims := []
  headerSorted : OrderedMap.Sorted compare headerClaims := by exact .nil
  payloadSorted : OrderedMap.Sorted compare payloadClaims := by exact .nil

namespace Builder

def setHeaderClaim (b : Builder) (id : Bytes) (c : Json) : Builder :=
  { b with
    headerClaims := Picojson.setMember id c b.headerClaims
    headerSorted := OrderedMap.set_sorted b.headerSorted }

def setPayloadClaim (b : Builder) (id : Bytes) (c : Json) : Builder :=
  { b with
    payloadClaims := Picojson.setMember id c b.payloadClaims
    payloadSorted := OrderedMap.set_sorted b.payloadSorted }

/-- The header that is signed. -/
def objHeader (b : Builder) : Claims :=
  if (b.headerClaims.lookup (ascii "alg")).isSome then b.headerClaims
  else Picojson.setMember (ascii "alg") (.string HS256) b.headerClaims

/-- The function that the parts are encoded with. -/
def encodePart (data : Bytes) : Bytes := base64url.trim (base64url.encode data)

/-- `sign` with HS256; `none` where a claim is a number that the model does not keep. -/
def sign (hmac : Hmac) (secret : Bytes) (b : Builder) : Option (Except StdException Bytes) := do
  let header := encodePart (← Picojson.serialize (.object b.objHeader))
  let payload := encodePart (← Picojson.serialize (.object b.payloadClaims))
  let token := header ++ ascii "." ++ payload
  return do
    let signature ← hs256Sign hmac secret token
    return token ++ ascii "." ++ encodePart signature

end Builder

end Gateway.Jwt
