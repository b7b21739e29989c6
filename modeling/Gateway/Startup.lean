import Mathlib
import Gateway.ForwardRuns

/-! The URLs that pass `loadConfig` against those that `forwardRequest` can use. -/
namespace Gateway

open Program Search

variable {env : Environment} {cfg : Config} {base hostport : Bytes}

/-- The part of a URL between its scheme and its path. -/
def authorityOf (base : Bytes) : Bytes := (base.drop 7).takeWhile (· ≠ 47)

/-- The path of a URL, from its first slash on. -/
def pathOf (base : Bytes) : Bytes := (base.drop 7).dropWhile (· ≠ 47)

/-- A host, with or without a port in range. -/
inductive Authority : Bytes → Prop where
  | bare {host : Bytes} (hhost : host ≠ []) (hplain : 58 ∉ host) : Authority host
  | withPort {host port : Bytes} {n : Int} (hhost : host ≠ []) (hplain : 58 ∉ port)
      (hport : stoi port = some n) (hlow : 0 < n) (hhigh : n ≤ 65535) :
      Authority (host ++ 58 :: port)

theorem rfind?_eq_none {c : UInt8} {s : Bytes} (h : c ∉ s) : rfind? c s = none := by
  simp [rfind?, h]

theorem idxOf?_block {c : UInt8} {a b : Bytes} (h : c ∉ a) :
    (a ++ c :: b).idxOf? c = some a.length := by
  induction a with
  | nil => simp [List.idxOf?_cons]
  | cons d a ih =>
    simp only [List.mem_cons, not_or] at h
    have hne : (d == c) = false := by simpa using Ne.symm h.1
    simp [List.idxOf?_cons, hne, ih h.2]

theorem rfind?_last {c : UInt8} {s t : Bytes} (h : c ∉ t) :
    rfind? c (s ++ c :: t) = some s.length := by
  have hrev : (s ++ c :: t).reverse = t.reverse ++ c :: s.reverse := by simp
  rw [rfind?, hrev, idxOf?_block (by simpa using h)]
  simp

theorem exists_last {c : UInt8} {s : Bytes} (h : c ∈ s) : ∃ a b, s = a ++ c :: b ∧ c ∉ b := by
  obtain ⟨as, bs, heq, hno⟩ := List.eq_append_cons_of_mem (List.mem_reverse.mpr h)
  refine ⟨bs.reverse, as.reverse, ?_, by simpa using hno⟩
  rw [← List.reverse_reverse s, heq]
  simp

theorem parseHostPort_plain (h : 58 ∉ hostport) : parseHostPort hostport = .ok (hostport, 80) := by
  rw [parseHostPort, rfind?_eq_none h]

theorem parseHostPort_last {host host' port : Bytes} {n : Int} (h : 58 ∉ port) :
    parseHostPort (host ++ 58 :: port) = .ok (host', n) ↔
      host' = host ∧ stoi port = some n ∧ 0 < n ∧ n ≤ 65535 := by
  have hport : (host ++ 58 :: port).drop (host.length + 1) = port := by
    rw [← List.drop_drop, List.drop_left]
    rfl
  rw [parseHostPort, rfind?_last h]
  simp only [hport, List.take_left]
  cases stoi port with
  | none => simp
  | some k =>
    simp only [Option.some.injEq]
    by_cases hrange : k ≤ 0 ∨ 65535 < k
    · rw [if_pos hrange]
      refine iff_of_false (by simp) ?_
      rintro ⟨-, rfl, hlow, hhigh⟩
      omega
    · rw [if_neg hrange, Except.ok.injEq, Prod.mk.injEq]
      constructor
      · rintro ⟨rfl, rfl⟩
        exact ⟨rfl, rfl, by omega, by omega⟩
      · rintro ⟨rfl, rfl, -, -⟩
        exact ⟨rfl, rfl⟩

/-- Hosts, and hosts with a port, are read from exactly the authorities. -/
theorem parseHostPort_iff : (∃ host port, parseHostPort hostport = .ok (host, port) ∧ host ≠ []) ↔
    Authority hostport := by
  constructor
  · rintro ⟨host, n, h, hhost⟩
    by_cases hcolon : 58 ∈ hostport
    · obtain ⟨a, port, rfl, hplain⟩ := exists_last hcolon
      obtain ⟨rfl, hport, hlow, hhigh⟩ := (parseHostPort_last hplain).mp h
      exact .withPort hhost hplain hport hlow hhigh
    · rw [parseHostPort_plain hcolon] at h
      cases h
      exact .bare hhost hcolon
  · intro h
    cases h with
    | bare hhost hplain => exact ⟨hostport, 80, parseHostPort_plain hplain, hhost⟩
    | withPort hhost hplain hport hlow hhigh =>
      exact ⟨_, _, (parseHostPort_last hplain).mpr ⟨rfl, hport, hlow, hhigh⟩, hhost⟩

/-- Behind its scheme, a URL is judged by its authority. -/
theorem parseUpstream_of_scheme (hscheme : ascii "http://" <+: base) :
    (∀ e, parseHostPort (authorityOf base) = .error e → parseUpstream base = .error e) ∧
    ∀ host port, parseHostPort (authorityOf base) = .ok (host, port) →
      parseUpstream base = if host = [] then .error (ascii "empty host")
        else .ok ⟨host, port, trimSlashes (pathOf base)⟩ := by
  have hslash : ascii "/" = [47] := by decide
  unfold parseUpstream authorityOf pathOf
  rw [if_neg (not_not_intro hscheme), hslash]
  cases hfind : find? [47] (base.drop 7) with
  | none =>
    rw [(parts_of_find?_none hfind).1, (parts_of_find?_none hfind).2]
    constructor
    · intro e h
      simp only [hfind, h]
    · intro host port h
      simp only [hfind, h]
  | some slash =>
    rw [← (parts_of_find?_singleton hfind).1, ← (parts_of_find?_singleton hfind).2]
    constructor
    · intro e h
      simp only [hfind, h]
    · intro host port h
      simp only [hfind, h]

/-- The URLs that the proxy can use. -/
theorem parseUpstream_iff : (∃ up, parseUpstream base = .ok up) ↔
    ascii "http://" <+: base ∧ Authority (authorityOf base) := by
  rw [← parseHostPort_iff]
  by_cases hscheme : ascii "http://" <+: base
  · obtain ⟨herror, hok⟩ := parseUpstream_of_scheme hscheme
    cases hread : parseHostPort (authorityOf base) with
    | error e => simp [herror e hread]
    | ok hostPort =>
      obtain ⟨host, port⟩ := hostPort
      rw [hok host port hread]
      by_cases hhost : host = []
      · simp [hhost]
      · simp [hhost, hscheme]
  · rw [parseUpstream, if_pos hscheme]
    simp [hscheme]

/-- The failure of a request whose upstream URL cannot be parsed. -/
def IsBadUrl (pr : ProxyResult) : Prop := ascii "bad upstream url" <+: pr.error

/-- The errors of a message that was received completely. -/
theorem parseUpstreamResponse_error (raw : Bytes) : (parseUpstreamResponse raw).error ∈
    [[], ascii "bad upstream response", ascii "bad upstream status"] := by
  unfold parseUpstreamResponse
  split
  · simp
  · have hstatus : ∀ (p : Prop) [Decidable p] (pr : ProxyResult), pr.error = [] →
        (if p then { error := ascii "bad upstream status" } else pr).error ∈
          [[], ascii "bad upstream response", ascii "bad upstream status"] := by
      intro p _ pr hpr
      split
      · simp
      · simp [hpr]
    exact hstatus _ _ rfl

/-- A base that can be parsed never fails with a bad URL. -/
theorem not_badUrl_of_outcome {up : UpstreamAddr} {pr : ProxyResult}
    (hup : parseUpstream base = .ok up) (h : Outcome base pr) : ¬ IsBadUrl pr := by
  have hresponse : ∀ e ∈ [[], ascii "bad upstream response", ascii "bad upstream status"],
      ¬ ascii "bad upstream url" <+: e := by decide
  cases h with
  | badUrl herror =>
    rw [hup] at herror
    cases herror
  | noAddress => exact (by decide : ¬ ascii "bad upstream url" <+: ascii "dns resolve failed")
  | connectTimeout => exact (by decide : ¬ ascii "bad upstream url" <+: ascii "connect timeout")
  | connectFailed => exact (by decide : ¬ ascii "bad upstream url" <+: ascii "connect failed")
  | tooLarge =>
    exact (by decide : ¬ ascii "bad upstream url" <+: ascii "upstream response too large")
  | ioFailed => exact (by decide : ¬ ascii "bad upstream url" <+: ascii "upstream io failed")
  | answered raw => exact hresponse _ (parseUpstreamResponse_error raw)

/-- Every URL that is set can be used, now and in every later request. -/
structure FullyConfigured (cfg : Config) : Prop where
  parses : ∀ area url : Bytes, cfg.upstreams[area]? = some url → url ≠ [] →
    ∃ up, parseUpstream url = .ok up
  forwards : ∀ area req path auth timeoutMs evs pr, cfg.upstreamFor area ≠ [] →
    Prog.Runs (forwardRequest (cfg.upstreamFor area) req path auth timeoutMs) evs pr →
    ¬ IsBadUrl pr

/-- The base of an area, when there is one, is one of the URLs that are set. -/
theorem upstreamFor_mem {area : Bytes} (h : cfg.upstreamFor area ≠ []) :
    ∃ area' : Bytes, cfg.upstreams[area']? = some (cfg.upstreamFor area) := by
  generalize hbase : cfg.upstreamFor area = url at h ⊢
  unfold Config.upstreamFor at hbase
  split at hbase
  · rename_i c cs hset
    exact ⟨area, hbase ▸ hset⟩
  · split at hbase
    · cases htests : cfg.upstreams[ascii "tests"]? with
      | none =>
        rw [htests] at hbase
        exact (h hbase.symm).elim
      | some u =>
        rw [htests] at hbase
        exact ⟨ascii "tests", by rw [htests, ← hbase]; rfl⟩
    · exact (h hbase.symm).elim

theorem scheme_of_loadConfig {area url : Bytes} (h : loadConfig env = .ok cfg)
    (hurl : cfg.upstreams[area]? = some url) (hne : url ≠ []) : ascii "http://" <+: url := by
  obtain ⟨-, -, hscheme⟩ := loadConfig_ok h
  exact hscheme (area, url) (Std.ExtTreeMap.mem_toList_iff_getElem?_eq_some.mpr hurl) hne

/-- The gateway starts fully configured exactly when every URL that is set names a host, and
a port in range if it names one. -/
theorem fully_configured_iff (h : loadConfig env = .ok cfg) : FullyConfigured cfg ↔
    ∀ area url : Bytes, cfg.upstreams[area]? = some url → url ≠ [] →
      Authority (authorityOf url) := by
  constructor
  · intro hfull area url hurl hne
    exact (parseUpstream_iff.mp (hfull.parses area url hurl hne)).2
  · intro hall
    have hparse : ∀ area url : Bytes, cfg.upstreams[area]? = some url → url ≠ [] →
        ∃ up, parseUpstream url = .ok up := by
      intro area url hurl hne
      exact parseUpstream_iff.mpr ⟨scheme_of_loadConfig h hurl hne, hall area url hurl hne⟩
    refine ⟨hparse, ?_⟩
    intro area req path auth timeoutMs evs pr hbase hrun
    obtain ⟨area', hurl⟩ := upstreamFor_mem hbase
    obtain ⟨up, hup⟩ := hparse area' _ hurl hbase
    exact not_badUrl_of_outcome hup
      (Prog.of_returns (forwardRequest_outcome _ req path auth timeoutMs) hrun)

/-- The environment that sets the secret and the URL of one module. -/
def usersAt (url : Bytes) : Environment := fun name =>
  if name = ascii "MODULE_USERS_URL" then some url else secretOnly name

theorem loadConfig_users : loadConfig (usersAt (ascii "http://users:9001/v1")) =
    .ok (readConfig (usersAt (ascii "http://users:9001/v1"))) :=
  loadConfig_of_checks (by decide +kernel) (by decide +kernel)

theorem loadConfig_noHost : loadConfig (usersAt (ascii "http://")) =
    .ok (readConfig (usersAt (ascii "http://"))) :=
  loadConfig_of_checks (by decide +kernel) (by decide +kernel)

theorem users_configured :
    FullyConfigured (readConfig (usersAt (ascii "http://users:9001/v1"))) := by
  apply (fully_configured_iff loadConfig_users).mpr
  intro area url hurl hne
  have hall : ∀ kv ∈ (readConfig (usersAt (ascii "http://users:9001/v1"))).upstreams.toList,
      kv.2 ≠ [] → kv.2 = ascii "http://users:9001/v1" := by decide +kernel
  obtain rfl := hall (area, url) (Std.ExtTreeMap.mem_toList_iff_getElem?_eq_some.mpr hurl) hne
  have hauthority : authorityOf (ascii "http://users:9001/v1") =
      ascii "users" ++ 58 :: ascii "9001" := by decide
  rw [hauthority]
  exact .withPort (by decide) (by decide) (show stoi (ascii "9001") = some 9001 by decide)
    (by decide) (by decide)

/-- A URL without a host passes the check at the start and fails at every request. -/
theorem noHost_starts : loadConfig (usersAt (ascii "http://")) =
      .ok (readConfig (usersAt (ascii "http://"))) ∧
    (readConfig (usersAt (ascii "http://"))).upstreamFor (ascii "users") = ascii "http://" ∧
    parseUpstream (ascii "http://") = .error (ascii "empty host") ∧
    ¬ FullyConfigured (readConfig (usersAt (ascii "http://"))) := by
  have herror : parseUpstream (ascii "http://") = .error (ascii "empty host") := by decide +kernel
  refine ⟨loadConfig_noHost, by decide +kernel, herror, ?_⟩
  intro hfull
  obtain ⟨up, hup⟩ := hfull.parses (ascii "users") (ascii "http://") (by decide +kernel)
    (by decide)
  rw [herror] at hup
  cases hup

end Gateway
