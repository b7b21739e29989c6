import Mathlib
import Gateway.Text

/-! The configuration read from the environment (Config.h). -/
namespace Gateway

def kGatewayVersion : Bytes := ascii "1.0.0"
def kMaxHeaderBytes : Nat := 16384
def kMaxUpstreamBytes : Nat := 4 * 1024 * 1024

/-- `std::getenv`. -/
abbrev Environment := Bytes → Option Bytes

def envStr (env : Environment) (name default : Bytes) : Bytes :=
  match env name with
  | none | some [] => default
  | some v => v

def envInt (env : Environment) (name : Bytes) (default minV maxV : Int) : Int :=
  match env name with
  | none | some [] => default
  | some v =>
    match stoi v with
    | none => default
    | some n => if n < minV ∨ maxV < n then default else n

structure Config where
  bind : Bytes := ascii "0.0.0.0"
  port : Int := 1111
  jwtSecret : Bytes := []
  jwtIssuer : Bytes := []
  logLevel : Bytes := ascii "info"
  upstreamTimeoutMs : Int := 5000
  recvTimeoutMs : Int := 30000
  maxBodyBytes : Int := 1024 * 1024
  maxClients : Int := 128
  rateLimitPerMin : Int := 100
  upstreams : Std.ExtTreeMap Bytes Bytes := ∅

/-- The URL of an area; quests, attempts and answers fall back to tests. -/
def Config.upstreamFor (cfg : Config) (area : Bytes) : Bytes :=
  match cfg.upstreams[area]? with
  | some (c :: cs) => c :: cs
  | _ =>
    if area = ascii "quests" ∨ area = ascii "attempts" ∨ area = ascii "answers" then
      (cfg.upstreams[ascii "tests"]?).getD []
    else []

/-- The settings as read, before `loadConfig` checks them. -/
def readConfig (env : Environment) : Config where
  bind := envStr env (ascii "BIND") (ascii "0.0.0.0")
  port := envInt env (ascii "PORT") 1111 1 65535
  jwtSecret := envStr env (ascii "JWT_SECRET") []
  jwtIssuer := envStr env (ascii "JWT_ISSUER") []
  logLevel := envStr env (ascii "LOG_LEVEL") (ascii "info")
  upstreamTimeoutMs := envInt env (ascii "UPSTREAM_TIMEOUT_MS") 5000 100 120000
  recvTimeoutMs := envInt env (ascii "RECV_TIMEOUT_MS") 30000 1000 300000
  maxBodyBytes := envInt env (ascii "MAX_BODY_BYTES") (1024 * 1024) 1024 (16 * 1024 * 1024)
  maxClients := envInt env (ascii "MAX_CLIENTS") 128 1 4096
  rateLimitPerMin := envInt env (ascii "RATE_LIMIT_PER_MIN") 100 0 100000
  upstreams := (∅ : Std.ExtTreeMap Bytes Bytes)
    |>.insert (ascii "users") (envStr env (ascii "MODULE_USERS_URL") [])
    |>.insert (ascii "courses") (envStr env (ascii "MODULE_COURSES_URL") [])
    |>.insert (ascii "quests") (envStr env (ascii "MODULE_QUESTS_URL") [])
    |>.insert (ascii "tests") (envStr env (ascii "MODULE_TESTS_URL") [])
    |>.insert (ascii "attempts") (envStr env (ascii "MODULE_ATTEMPTS_URL") [])
    |>.insert (ascii "answers") (envStr env (ascii "MODULE_ANSWERS_URL") [])

def loadConfig (env : Environment) : Except Bytes Config :=
  let c := readConfig env
  if c.jwtSecret = [] then
    .error (ascii "JWT_SECRET is not set. Copy .env.example to .env and set a strong secret.")
  else
    match c.upstreams.toList.find? fun kv => kv.2 ≠ [] ∧ ¬ ascii "http://" <+: kv.2 with
    | some (area, url) =>
      .error (ascii "Upstream URL for '" ++ area ++ ascii "' must start with http:// (got '" ++
        url ++ ascii "').")
    | none => .ok c

/-- A setting outside its range is replaced by the default, so every value is in range. -/
theorem envInt_mem_range {env : Environment} {name : Bytes} {default minV maxV : Int}
    (hlo : minV ≤ default) (hhi : default ≤ maxV) :
    minV ≤ envInt env name default minV maxV ∧ envInt env name default minV maxV ≤ maxV := by
  unfold envInt
  split
  · exact ⟨hlo, hhi⟩
  · exact ⟨hlo, hhi⟩
  · split
    · exact ⟨hlo, hhi⟩
    · split <;> omega

theorem loadConfig_ok {env : Environment} {cfg : Config} (h : loadConfig env = .ok cfg) :
    cfg = readConfig env ∧ cfg.jwtSecret ≠ [] ∧
      ∀ kv ∈ cfg.upstreams.toList, kv.2 ≠ [] → ascii "http://" <+: kv.2 := by
  simp only [loadConfig] at h
  split at h
  · cases h
  · rename_i hs
    split at h
    · cases h
    · rename_i hf
      cases h
      refine ⟨rfl, hs, ?_⟩
      intro kv hkv hne
      have hkv' := List.find?_eq_none.mp hf kv hkv
      by_contra hno
      exact hkv' (by simp [hne, hno])

theorem loadConfig_of_checks {env : Environment} (hsecret : (readConfig env).jwtSecret ≠ [])
    (hurls : ∀ kv ∈ (readConfig env).upstreams.toList, kv.2 ≠ [] → ascii "http://" <+: kv.2) :
    loadConfig env = .ok (readConfig env) := by
  have hnone : (readConfig env).upstreams.toList.find?
      (fun kv => kv.2 ≠ [] ∧ ¬ ascii "http://" <+: kv.2) = none := by
    rw [List.find?_eq_none]
    intro kv hkv hbad
    obtain ⟨hne, hno⟩ := of_decide_eq_true hbad
    exact hno (hurls kv hkv hne)
  simp only [loadConfig, if_neg hsecret, hnone]

/-- The environment that sets nothing but the secret. -/
def secretOnly : Environment := fun name =>
  if name = ascii "JWT_SECRET" then some (ascii "s3cret") else none

theorem loadConfig_secretOnly : loadConfig secretOnly = .ok (readConfig secretOnly) :=
  loadConfig_of_checks (by decide +kernel) (by decide +kernel)

end Gateway
