import Mathlib
import Gateway.Launch
import Gateway.LogText
import Gateway.TokenSecrecy

/-! The gateway's own secret reaches the verifier and nothing else. -/
namespace Gateway

open Program

variable {env env' : Environment} {cfg : Config} {secret ip leftover : Bytes} {s : Socket}
  {req : HttpRequest} {route : RouteResult}

def Config.withSecret (cfg : Config) (secret : Bytes) : Config := { cfg with jwtSecret := secret }

/-- What main comes to, without the secret. -/
def Launched.withoutSecret : Launched → Launched
  | .returned code => .returned code
  | .listening s cfg => .listening s (cfg.withSecret [])

/-- An event without the secret, which stands in the call of `verifyJwt`. -/
def withoutSecret : NotedEvent Op Note Res → NotedEvent Op Note Res
  | ⟨.inl (.verifyJwt token _ requiredIssuer), r⟩ => ⟨.inl (.verifyJwt token [] requiredIssuer), r⟩
  | e => e

/-- The programs do the same, up to the secret. -/
abbrev AlikeButSecret {α β : Type} (S : α → β → Prop) (p : Logged.LoggedIo α)
    (q : Logged.LoggedIo β) : Prop :=
  Alike withoutSecret S p q

/-- The other settings do not depend on the secret. -/
theorem readConfig_withSecret
    (hsame : ∀ name, name ≠ ascii "JWT_SECRET" → env' name = env name) :
    readConfig env' = (readConfig env).withSecret (readConfig env').jwtSecret := by
  have hstr : ∀ name default, name ≠ ascii "JWT_SECRET" →
      envStr env' name default = envStr env name default := by
    intro name default hname
    rw [envStr, envStr, hsame name hname]
  have hint : ∀ name default minV maxV, name ≠ ascii "JWT_SECRET" →
      envInt env' name default minV maxV = envInt env name default minV maxV := by
    intro name default minV maxV hname
    rw [envInt, envInt, hsame name hname]
  simp (disch := decide) only [readConfig, Config.withSecret, hstr, hint]

theorem loadConfig_withSecret
    (hsame : ∀ name, name ≠ ascii "JWT_SECRET" → env' name = env name)
    (hset : (readConfig env).jwtSecret ≠ []) (hset' : (readConfig env').jwtSecret ≠ []) :
    loadConfig env' = (loadConfig env).map (·.withSecret (readConfig env').jwtSecret) := by
  have hread := readConfig_withSecret hsame
  have hurls : (readConfig env').upstreams = (readConfig env).upstreams := by
    rw [hread]
    rfl
  simp only [loadConfig, if_neg hset, if_neg hset', hurls]
  split
  · rfl
  · exact congrArg _ hread

/-- Main starts in the same way, whatever the secret is. -/
theorem startListening_withSecret :
    Alike id (fun out out' => out'.withoutSecret = out.withoutSecret) (startListening cfg)
      (startListening (cfg.withSecret secret)) := by
  rw [startListening, startListening]
  refine (Alike.refl _).bind fun _ _ _ => (Alike.refl _).bind fun _ _ _ =>
    (Alike.refl _).bind fun _ _ _ => (Alike.refl _).bind fun ok ok' heq => ?_
  subst heq
  cases ok with
  | false => exact (Alike.refl _).bind fun _ _ _ => ⟨_, rfl, rfl⟩
  | true =>
    refine (Alike.refl (ask (.getaddrinfo cfg.bind _))).bind fun resolved resolved' heq => ?_
    subst heq
    split
    · exact (Alike.refl (ask (.cerr _))).bind fun _ _ _ => (Alike.refl _).bind fun _ _ _ =>
        ⟨_, rfl, rfl⟩
    · refine (Alike.refl (listenAny _)).bind fun so so' heq => (Alike.refl _).bind fun _ _ _ => ?_
      subst heq
      cases so with
      | none =>
        refine (Alike.refl (ask (.cerr _))).bind fun _ _ _ => (Alike.refl _).bind fun _ _ heq => ?_
        subst heq
        exact (Alike.refl (ask (.cerr _))).bind fun _ _ _ => (Alike.refl _).bind fun _ _ _ =>
          ⟨_, rfl, rfl⟩
      | some s =>
        refine (Alike.refl (ask (.cout (banner cfg)))).bind fun _ _ _ =>
          (Alike.refl _).bind fun _ _ _ => (Alike.refl _).bind fun address _ heq => ?_
        subst heq
        exact (Alike.refl _).bind fun _ _ _ => ⟨_, rfl, rfl⟩

theorem authorize_withSecret : AlikeButSecret Eq (Logged.authorize s cfg req route)
    (Logged.authorize s (cfg.withSecret secret) req route) := by
  rw [Logged.authorize, Logged.authorize]
  split
  · exact .refl _
  · have hverify : ∀ token, AlikeButSecret Eq
        (Noted.silent (perform (.verifyJwt token cfg.jwtSecret cfg.jwtIssuer)))
        (Noted.silent (perform (.verifyJwt token secret cfg.jwtIssuer))) := fun token =>
      ⟨_, _, rfl, fun auth => ⟨auth, rfl, .refl _⟩⟩
    refine (hverify _).bind fun auth auth' heq => ?_
    subst heq
    exact .refl _

theorem serve_withSecret : AlikeButSecret Eq (Logged.serve s ip cfg req)
    (Logged.serve s ip (cfg.withSecret secret) req) :=
  serve_congr rfl rfl rfl rfl fun _ => authorize_withSecret

theorem handleAccepted_withSecret : AlikeButSecret Eq (Logged.handleAccepted s ip cfg req leftover)
    (Logged.handleAccepted s ip (cfg.withSecret secret) req leftover) := by
  refine (Alike.refl (Logged.bodyPhase s cfg _ leftover)).bind fun out out' heq => ?_
  subst heq
  cases out with
  | done req => exact serve_withSecret
  | _ => exact .refl _

theorem handleClient_withSecret : AlikeButSecret Eq (Logged.handleClient s ip cfg)
    (Logged.handleClient s ip (cfg.withSecret secret)) := by
  refine (Alike.refl _).bind fun _ _ _ => (Alike.refl _).bind fun out out' heq => ?_
  subst heq
  cases out with
  | accepted req leftover => exact handleAccepted_withSecret
  | _ => exact .refl _

theorem notesIn_withoutSecret (evs : List (NotedEvent Op Note Res)) :
    Noted.notesIn (evs.map withoutSecret) = Noted.notesIn evs := by
  induction evs with
  | nil => rfl
  | cons e evs ih =>
    obtain ⟨o, r⟩ := e
    cases o with
    | inl o => cases o <;> exact ih
    | inr n => exact congrArg (n :: ·) ih

/-- To every run there is one with the same messages in the log and the same calls, but for the
secret that is handed to `verifyJwt`. -/
def MatchedButSecret (p q : Logged.LoggedIo Unit) : Prop :=
  ∀ evs, p.Runs evs () → ∃ evs', q.Runs evs' () ∧
    evs'.map withoutSecret = evs.map withoutSecret ∧ Noted.notesIn evs' = Noted.notesIn evs

theorem matched_of_alike {p q : Logged.LoggedIo Unit} (h : AlikeButSecret Eq p q) :
    MatchedButSecret p q := by
  intro evs hrun
  obtain ⟨evs', ⟨⟩, hrun', -, hview⟩ := h.runs hrun
  refine ⟨evs', hrun', hview, ?_⟩
  rw [← notesIn_withoutSecret, hview, notesIn_withoutSecret]

/-- Two environments that differ in their secrets alone: main starts with the same calls and the
same texts in either, and a connection is served alike but for the secret, before and after its
head has been parsed. -/
theorem secret_confined
    (hsame : ∀ name, name ≠ ascii "JWT_SECRET" → env' name = env name)
    (hset : (readConfig env).jwtSecret ≠ []) (hset' : (readConfig env').jwtSecret ≠ []) :
    (∀ evs out, (launch env).Runs evs out →
      ∃ out', (launch env').Runs evs out' ∧ out'.withoutSecret = out.withoutSecret) ∧
    ∀ cfg cfg', loadConfig env = .ok cfg → loadConfig env' = .ok cfg' →
      (∀ s ip, MatchedButSecret (Logged.handleClient s ip cfg) (Logged.handleClient s ip cfg')) ∧
      ∀ s ip req leftover, MatchedButSecret (Logged.handleAccepted s ip cfg req leftover)
        (Logged.handleAccepted s ip cfg' req leftover) := by
  have hload := loadConfig_withSecret hsame hset hset'
  constructor
  · intro evs out hrun
    rw [launch] at hrun
    rw [launch, hload]
    cases hcfg : loadConfig env with
    | error e =>
      rw [hcfg] at hrun
      exact ⟨out, hrun, rfl⟩
    | ok cfg =>
      rw [hcfg] at hrun
      obtain ⟨evs', out', hrun', hout, hevs⟩ := startListening_withSecret.runs hrun
      rw [List.map_id, List.map_id] at hevs
      exact ⟨out', hevs ▸ hrun', hout⟩
  · intro cfg cfg' hcfg hcfg'
    rw [hload, hcfg] at hcfg'
    obtain rfl := Except.ok.inj hcfg'
    exact ⟨fun s ip => matched_of_alike handleClient_withSecret,
      fun s ip req leftover => matched_of_alike handleAccepted_withSecret⟩

/-- The settings of the sample gateway with another secret. -/
def otherSecret : Environment := fun name =>
  if name = ascii "JWT_SECRET" then some (ascii "h1dden") else bearerSettings name

/-- With another secret the sample request leaves the log and the calls that it leaves with its
own, which is handed to `verifyJwt`. -/
theorem otherSecret_confined : ∃ evs' : List (NotedEvent Op Note Res),
    (Logged.handleAccepted 4 [] (readConfig otherSecret) bearerRequest []).Runs evs' () ∧
    evs'.map withoutSecret = bearerEvents.map withoutSecret ∧
    Noted.notesIn evs' = Noted.notesIn bearerEvents ∧
    ⟨.inl (.verifyJwt Jwt.sampleToken (ascii "k") []), bearerAuth⟩ ∈ bearerEvents := by
  have hother : loadConfig otherSecret = .ok (readConfig otherSecret) :=
    loadConfig_of_checks (by decide +kernel) (by decide +kernel)
  have hsame : ∀ name, name ≠ ascii "JWT_SECRET" → otherSecret name = bearerSettings name := by
    intro name hname
    rw [otherSecret, if_neg hname]
  obtain ⟨evs', hrun', hview, hnotes⟩ :=
    ((secret_confined hsame (by decide +kernel) (by decide +kernel)).2 _ _ loadConfig_bearer
      hother).2 4 [] bearerRequest [] bearerEvents bearerRequest_logs
  exact ⟨evs', hrun', hview, hnotes, by simp [bearerEvents]⟩

end Gateway
