import Mathlib
import Gateway.Text

/-! Token verification (CheckToken.h, CheckToken.cpp) over the claim accessors of jwt-cpp. -/
namespace Gateway

/-- `picojson::value`; the numbers that are not 64-bit integers are never read. -/
inductive Json where
  | null
  | boolean (b : Bool)
  | int64 (n : Int)
  | number
  | string (s : Bytes)
  | array (items : List Json)
  | object (members : List (Bytes × Json))

structure AuthInfo where
  ok : Bool := false
  sub : Bytes := []
  roles : List Bytes := []
  permissions : List Bytes := []
  error : Bytes := []
  deriving DecidableEq

/-- A thrown `std::exception` by its `what()`. -/
inductive StdException where
  | tokenVerification (what : Bytes)
  | other (what : Bytes)

/-- Anything thrown; `foreign` is not derived from `std::exception`. -/
inductive Exn where
  | std (e : StdException)
  | foreign

structure DecodedJwt where
  token : Bytes
  payloadClaims : Std.ExtTreeMap Bytes Json

/-- The parts of jwt-cpp and of the clock that `verifyJwt` relies on. -/
structure JwtLibrary where
  decode : Bytes → Except StdException DecodedJwt
  verify : Bytes → DecodedJwt → Except StdException Unit
  /-- `std::chrono::system_clock::now`, in nanoseconds. -/
  now : Int

/-- `std::chrono::system_clock::from_time_t`: the seconds become 64-bit nanoseconds, and wrap. -/
def fromTimeT (t : Int) : Int := (t * 1000000000).bmod (2 ^ 64)

def DecodedJwt.hasPayloadClaim (d : DecodedJwt) (name : Bytes) : Bool :=
  d.payloadClaims.contains name

def DecodedJwt.getPayloadClaim (d : DecodedJwt) (name : Bytes) : Except Exn Json :=
  match d.payloadClaims[name]? with
  | some v => .ok v
  | none => .error (.std (.other (ascii "claim not found")))

/-- `std::bad_cast`. -/
def badCast : StdException := .other (ascii "std::bad_cast")

def Json.asString : Json → Except Exn Bytes
  | .string s => .ok s
  | _ => .error (.std badCast)

def Json.asArray : Json → Except Exn (List Json)
  | .array items => .ok items
  | _ => .error (.std badCast)

def Json.asInt : Json → Except Exn Int
  | .int64 n => .ok n
  | _ => .error (.std badCast)

def Json.string? : Json → Option Bytes
  | .string s => some s
  | _ => none

/-- `extractStringList`: the strings it appends to `out`. -/
def extractStringList (d : DecodedJwt) (claimName : Bytes) (out : List Bytes) : List Bytes :=
  if d.hasPayloadClaim claimName then
    match d.getPayloadClaim claimName with
    | .error _ => out
    | .ok claim =>
      match claim.asArray with
      | .ok arr => out ++ arr.filterMap Json.string?
      | .error _ =>
        match claim.asString with
        | .ok s => out ++ [s]
        | .error _ => out
  else out

def DecodedJwt.getSubject (d : DecodedJwt) : Except Exn Bytes := do
  (← d.getPayloadClaim (ascii "sub")).asString

def DecodedJwt.getIssuer (d : DecodedJwt) : Except Exn Bytes := do
  (← d.getPayloadClaim (ascii "iss")).asString

def DecodedJwt.getExpiresAt (d : DecodedJwt) : Except Exn Int := do
  return fromTimeT (← (← d.getPayloadClaim (ascii "exp")).asInt)

/-- The explicit second look at `exp`; a claim that is no date throws. -/
def DecodedJwt.expired (lib : JwtLibrary) (d : DecodedJwt) : Except Exn Bool :=
  if d.hasPayloadClaim (ascii "exp") then
    match d.getExpiresAt with
    | .ok t => .ok (t < lib.now)
    | .error e => .error e
  else .ok false

/-- `iss` as the manual check reads it: empty when absent or not a string. -/
def DecodedJwt.issuerOrEmpty (d : DecodedJwt) : Bytes :=
  match d.getIssuer with
  | .ok s => s
  | .error _ => []

/-- The `try` block of `verifyJwt`; what it wrote to `info` before a throw stays there. -/
def verifyBlock (lib : JwtLibrary) (token secret requiredIssuer : Bytes) (info : AuthInfo) :
    Except Exn Unit × AuthInfo :=
  match lib.decode token with
  | .error e => (.error (.std e), info)
  | .ok decoded =>
    match lib.verify secret decoded with
    | .error e => (.error (.std e), info)
    | .ok () =>
      match decoded.expired lib with
      | .error e => (.error e, info)
      | .ok true => (.ok (), { info with error := ascii "token expired" })
      | .ok false =>
        if requiredIssuer ≠ [] ∧ decoded.issuerOrEmpty ≠ requiredIssuer then
          (.ok (), { info with error := ascii "issuer mismatch" })
        else
          let info := match decoded.getSubject with
            | .ok s => { info with sub := s }
            | .error _ => info
          let info := { info with roles := extractStringList decoded (ascii "roles") info.roles }
          let info := { info with
            permissions := extractStringList decoded (ascii "permissions") info.permissions }
          (.ok (), { info with ok := true })

def verifyJwt (lib : JwtLibrary) (token secret requiredIssuer : Bytes) : Except Exn AuthInfo :=
  if token = [] then .ok { error := ascii "empty token" }
  else if secret = [] then .ok { error := ascii "JWT_SECRET is not set, fail closed." }
  else
    match verifyBlock lib token secret requiredIssuer {} with
    | (.ok (), info) => .ok info
    | (.error (.std (.tokenVerification what)), info) =>
      .ok { info with error := ascii "verification failed: " ++ what }
    | (.error (.std (.other what)), info) =>
      .ok { info with error := ascii "decode error: " ++ what }
    | (.error .foreign, _) => .error .foreign

end Gateway
