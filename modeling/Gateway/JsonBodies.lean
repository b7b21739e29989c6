import Mathlib
import Gateway.AuthorizationGate
import Gateway.Startup
import Gateway.Library.JsonText

/-! The JSON documents of the gateway, read back. -/
namespace Gateway

open Program JsonText

variable {cfg : Config} {env : Environment}

theorem hexValue_hexDigit : ∀ c : UInt8, c < 32 →
    hexValue (hexDigit (c / 16)) = some (c.toNat / 16) ∧
      hexValue (hexDigit (c % 16)) = some (c.toNat % 16) := by
  decide +kernel

/-- The long escape of a control byte. -/
theorem readEscape_control {c : UInt8} (h : c < 32) (rest : Bytes) :
    readEscape (117 :: 48 :: 48 :: hexDigit (c / 16) :: hexDigit (c % 16) :: rest) =
      some ([c], rest) := by
  obtain ⟨hhigh, hlow⟩ := hexValue_hexDigit c h
  have hzero : hexValue 48 = some 0 := by decide
  have hunit : readUnit (48 :: 48 :: hexDigit (c / 16) :: hexDigit (c % 16) :: rest) =
      some (c.toNat, rest) := by
    simp only [readUnit, hzero, hhigh, hlow, Option.bind_eq_bind, Option.bind_some]
    congr 2
    omega
  have hc : c.toNat < 32 := UInt8.lt_iff_toNat_lt.mp h
  have hutf : utf8 c.toNat = [c] := by
    rw [utf8, if_pos (by omega)]
    simp
  rw [readEscape, if_pos rfl, hunit]
  simp only [Option.bind_eq_bind, Option.bind_some, hutf]
  rw [if_neg (by omega)]
  rfl

/-- Each escaped byte reads back as the byte, whatever is escaped behind it. -/
theorem spells_jsonEscapeByte {c : UInt8} {t s : Bytes} (h : Spells t s) :
    Spells (jsonEscapeByte c ++ t) (c :: s) := by
  unfold jsonEscapeByte
  split
  · subst c
    exact @spells_escape _ _ [34] [34] (fun _ => rfl) h
  · rename_i hquote
    split
    · subst c
      exact @spells_escape _ _ [92] [92] (fun _ => rfl) h
    · rename_i hslash
      split
      · subst c
        exact @spells_escape _ _ [10] (ascii "n") (fun _ => rfl) h
      · split
        · subst c
          exact @spells_escape _ _ [13] (ascii "r") (fun _ => rfl) h
        · split
          · subst c
            exact @spells_escape _ _ [9] (ascii "t") (fun _ => rfl) h
          · split
            · rename_i hcontrol
              exact @spells_escape _ _ [c] [117, 48, 48, hexDigit (c / 16), hexDigit (c % 16)]
                (readEscape_control hcontrol) h
            · rename_i hcontrol
              exact spells_plain ⟨hquote, hslash, by simpa using hcontrol⟩ h

theorem spells_jsonEscape (s : Bytes) : Spells (jsonEscape s) s := by
  induction s with
  | nil => exact spells_nil
  | cons c s ih =>
    rw [jsonEscape, List.flatMap_cons]
    exact spells_jsonEscapeByte ih

theorem hexDigit_printable : ∀ c : UInt8, c < 32 →
    32 ≤ hexDigit (c / 16) ∧ 32 ≤ hexDigit (c % 16) := by
  decide +kernel

theorem jsonEscapeByte_printable (c : UInt8) : ∀ b ∈ jsonEscapeByte c, 32 ≤ b := by
  unfold jsonEscapeByte
  split
  · exact List.all_iff_forall_prop.mp (by decide)
  · split
    · exact List.all_iff_forall_prop.mp (by decide)
    · split
      · exact List.all_iff_forall_prop.mp (by decide)
      · split
        · exact List.all_iff_forall_prop.mp (by decide)
        · split
          · exact List.all_iff_forall_prop.mp (by decide)
          · split
            · rename_i hcontrol
              obtain ⟨hhigh, hlow⟩ := hexDigit_printable c hcontrol
              simp only [List.forall_mem_append, List.forall_mem_cons]
              exact ⟨List.all_iff_forall_prop.mp (by decide), hhigh, hlow,
                fun b hb => absurd hb List.not_mem_nil⟩
            · rename_i hcontrol
              intro b hb
              rw [List.mem_singleton.mp hb]
              simpa using hcontrol

theorem jsonEscape_printable (s : Bytes) : ∀ b ∈ jsonEscape s, 32 ≤ b := by
  intro b hb
  obtain ⟨c, -, hc⟩ := List.mem_flatMap.mp hb
  exact jsonEscapeByte_printable c b hc

/-- The members of an error body, as it is written. -/
theorem jsonError_body (status : Nat) (code message : Bytes) :
    (jsonError status code message).body = 123 :: ([44].intercalate
      ([(ascii "error", code), (ascii "message", message)].map fun m =>
        memberText m.1 (34 :: (jsonEscape m.2 ++ [34]))) ++ [125]) := by
  have hopen : ascii "\x7b\"error\":\"" = [123, 34] ++ ascii "error" ++ [34, 58, 34] := by
    decide
  have hmiddle : ascii "\",\"message\":\"" =
      [34, 44, 34] ++ ascii "message" ++ [34, 58, 34] := by
    decide
  have hclose : ascii "\"\x7d" = [34, 125] := by decide
  simp only [jsonError, hopen, hmiddle, hclose, memberText, List.map_cons, List.map_nil,
    List.intercalate_cons_cons, List.intercalate_singleton, List.append_assoc, List.cons_append,
    List.nil_append]

/-- Whatever the two strings are, the body of an error decodes to exactly them. -/
theorem jsonError_decodes (status : Nat) (code message : Bytes) :
    decode (jsonError status code message).body = some (.object
      [(ascii "error", .string code), (ascii "message", .string message)]) ∧
    ∀ b ∈ (jsonError status code message).body, 32 ≤ b := by
  constructor
  · have hmembers : ∀ m ∈ [(ascii "error", code), (ascii "message", message)],
        Spells m.1 m.1 ∧ Text (34 :: (jsonEscape m.2 ++ [34])) (.string m.2) := by
      simp only [List.forall_mem_cons]
      refine ⟨⟨spells_self ?_, text_string (spells_jsonEscape code)⟩,
        ⟨spells_self ?_, text_string (spells_jsonEscape message)⟩, by simp⟩
      · exact List.all_iff_forall_prop.mp (by decide)
      · exact List.all_iff_forall_prop.mp (by decide)
    rw [jsonError_body]
    exact decode_text (text_object (by simp) hmembers)
  · have hopen : ∀ b ∈ ascii "\x7b\"error\":\"", 32 ≤ b :=
      List.all_iff_forall_prop.mp (by decide)
    have hmiddle : ∀ b ∈ ascii "\",\"message\":\"", 32 ≤ b :=
      List.all_iff_forall_prop.mp (by decide)
    have hclose : ∀ b ∈ ascii "\"\x7d", 32 ≤ b := List.all_iff_forall_prop.mp (by decide)
    simp only [jsonError, List.forall_mem_append]
    exact ⟨⟨⟨⟨hopen, jsonEscape_printable code⟩, hmiddle⟩, jsonEscape_printable message⟩, hclose⟩

/-- What a health check expects of the document. -/
def HealthDocument (cfg : Config) (body : Bytes) : Prop :=
  ∃ ms us, decode body = some (.object ms) ∧ Maps ms (ascii "status") (.string (ascii "ok")) ∧
    Maps ms (ascii "version") (.string kGatewayVersion) ∧
    Maps ms (ascii "upstreams") (.object us) ∧
    ∀ a ∈ apiAreas, Maps us a (.string (cfg.upstreamFor a))

/-- Every admitted request of the health route is answered with its document. -/
def HealthServed (cfg : Config) : Prop :=
  ∀ s clientIp req evs resp, (matchRoute req.method req.target cfg).kind = .kHealth →
    Prog.Runs (serve s clientIp cfg req) evs () → evs[0]? = some ⟨.allow clientIp, true⟩ →
    (s, resp) ∈ repliesOf evs → HealthDocument cfg resp.body

def upstreamsText (cfg : Config) : Bytes :=
  123 :: ([44].intercalate (apiAreas.map fun a =>
    memberText a (34 :: (cfg.upstreamFor a ++ [34]))) ++ [125])

/-- The members of the health document: their keys, their texts and their values. -/
def healthMembers (cfg : Config) : List (Bytes × Bytes × Value) :=
  [(ascii "status", 34 :: (ascii "ok" ++ [34]), .string (ascii "ok")),
    (ascii "version", 34 :: (kGatewayVersion ++ [34]), .string kGatewayVersion),
    (ascii "upstreams", upstreamsText cfg,
      .object (apiAreas.map fun a => (a, .string (cfg.upstreamFor a))))]

theorem healthBody_eq (cfg : Config) : healthBody cfg =
    123 :: ([44].intercalate ((healthMembers cfg).map fun m => memberText m.1 m.2.1) ++ [125]) := by
  have hopen : ascii "\x7b\"status\":\"ok\",\"version\":\"" =
      [123, 34] ++ ascii "status" ++ [34, 58, 34] ++ ascii "ok" ++ [34, 44, 34] ++
        ascii "version" ++ [34, 58, 34] := by
    decide
  have hmiddle : ascii "\",\"upstreams\":\x7b" =
      [34, 44, 34] ++ ascii "upstreams" ++ [34, 58, 123] := by
    decide
  have hquote : ascii "\"" = [34] := by decide
  have hcomma : ascii "," = [44] := by decide
  have hcolon : ascii "\":\"" = [34, 58, 34] := by decide
  have hclose : ascii "\x7d\x7d" = [125, 125] := by decide
  have hmember : (fun a : Bytes => [34] ++ a ++ [34, 58, 34] ++ cfg.upstreamFor a ++ [34]) =
      fun a => memberText a (34 :: (cfg.upstreamFor a ++ [34])) := by
    funext a
    simp [memberText]
  rw [healthBody, hopen, hmiddle, hquote, hcomma, hcolon, hclose, hmember]
  simp only [healthMembers, upstreamsText, memberText, List.map_cons, List.map_nil,
    List.intercalate_cons_cons, List.intercalate_singleton, List.append_assoc, List.cons_append,
    List.nil_append]

theorem areas_plain : ∀ a ∈ apiAreas, ∀ c ∈ a, Plain c := by
  have hall : apiAreas.all (fun a => a.all fun c => decide (Plain c)) = true := by decide
  simpa using hall

theorem apiAreas_nodup : apiAreas.Nodup := by decide

/-- Without a special byte in the URLs, the document is what it looks like. -/
theorem healthDocument_of_plain (h : ∀ a ∈ apiAreas, ∀ c ∈ cfg.upstreamFor a, Plain c) :
    HealthDocument cfg (healthBody cfg) := by
  have hinner : Text (upstreamsText cfg)
      (.object (apiAreas.map fun a => (a, .string (cfg.upstreamFor a)))) := by
    apply text_object (by decide)
    intro a ha
    exact ⟨spells_self (areas_plain a ha), text_string (spells_self (h a ha))⟩
  have hmembers : ∀ m ∈ healthMembers cfg, Spells m.1 m.1 ∧ Text m.2.1 m.2.2 := by
    simp only [healthMembers, List.forall_mem_cons]
    refine ⟨⟨spells_self ?_, text_string (spells_self ?_)⟩,
      ⟨spells_self ?_, text_string (spells_self ?_)⟩, ⟨spells_self ?_, hinner⟩, by simp⟩
    · exact List.all_iff_forall_prop.mp (by decide)
    · exact List.all_iff_forall_prop.mp (by decide)
    · exact List.all_iff_forall_prop.mp (by decide)
    · exact List.all_iff_forall_prop.mp (by decide)
    · exact List.all_iff_forall_prop.mp (by decide)
  have hdecode : decode (healthBody cfg) =
      some (.object ((healthMembers cfg).map fun m => (m.1, m.2.2))) := by
    rw [healthBody_eq]
    exact decode_text (text_object (by simp [healthMembers]) hmembers)
  have hne : ascii "status" ≠ ascii "version" ∧ ascii "status" ≠ ascii "upstreams" ∧
      ascii "version" ≠ ascii "upstreams" := by decide
  refine ⟨_, _, hdecode, ?_, ?_, ?_, fun a ha => maps_of_mem apiAreas_nodup ha⟩ <;>
    simp [Maps, healthMembers, hne.1, hne.1.symm, hne.2.1, hne.2.1.symm, hne.2.2, hne.2.2.symm]

/-- A special byte would take more text than the document has. -/
theorem plain_of_healthDocument (h : HealthDocument cfg (healthBody cfg)) :
    ∀ a ∈ apiAreas, ∀ c ∈ cfg.upstreamFor a, Plain c := by
  obtain ⟨ms, us, hdecode, hstatus, hversion, hupstreams, hareas⟩ := h
  have hweight := weight_le_of_decode hdecode
  rw [healthBody_eq, text_object_length (by simp [healthMembers])] at hweight
  have htop := @weight_of_maps ms [(ascii "status", .string (ascii "ok")),
      (ascii "version", .string kGatewayVersion), (ascii "upstreams", .object us)]
    (show [ascii "status", ascii "version", ascii "upstreams"].Nodup by decide) (by
      simp only [List.forall_mem_cons]
      exact ⟨hstatus, hversion, hupstreams, by simp⟩)
  have hinner := @weight_of_maps us (apiAreas.map fun a => (a, .string (cfg.upstreamFor a)))
    apiAreas_nodup (by
      intro m hm
      obtain ⟨a, ha, rfl⟩ := List.mem_map.mp hm
      exact hareas a ha)
  have hlen : (upstreamsText cfg).length = (apiAreas.map fun a =>
      a.length + (34 :: (cfg.upstreamFor a ++ [34])).length + 4).sum + 1 :=
    text_object_length (by decide)
  rw [List.map_map] at hinner
  intro a ha
  apply plain_of_stringWeight_le
  by_contra hspecial
  have hlt : (apiAreas.map fun a =>
      a.length + (34 :: (cfg.upstreamFor a ++ [34])).length + 4).sum < membersWeight us := by
    apply lt_of_lt_of_le (List.sum_lt_sum _ _ ?_ ?_) hinner
    · intro b _
      have hkey := length_le_stringWeight b
      have hurl := length_le_stringWeight (cfg.upstreamFor b)
      simp only [Function.comp_apply, Value.weight, List.length_cons, List.length_append,
        List.length_nil]
      omega
    · refine ⟨a, ha, ?_⟩
      have hkey := length_le_stringWeight a
      simp only [Function.comp_apply, Value.weight, List.length_cons, List.length_append,
        List.length_nil]
      omega
  have hkeys : stringWeight (ascii "status") = 6 ∧ stringWeight (ascii "version") = 7 ∧
      stringWeight (ascii "upstreams") = 9 ∧ stringWeight (ascii "ok") = 2 ∧
      stringWeight kGatewayVersion = 5 := by decide
  have hlens : (ascii "status").length = 6 ∧ (ascii "version").length = 7 ∧
      (ascii "upstreams").length = 9 ∧ (ascii "ok").length = 2 ∧ kGatewayVersion.length = 5 := by
    decide
  simp only [healthMembers, Value.weight, List.map_cons, List.map_nil, List.sum_cons, List.sum_nil,
    List.length_cons, List.length_append, List.length_nil] at hweight htop
  omega

theorem healthServed_of_plain (h : ∀ a ∈ apiAreas, ∀ c ∈ cfg.upstreamFor a, Plain c) :
    HealthServed cfg := by
  intro s clientIp req evs resp hkind hrun hadmitted hreply
  obtain ⟨allowed, rest, rfl, hrest⟩ := hrun
  cases allowed with
  | false => simp at hadmitted
  | true =>
    simp only [Prog.bind, Bool.not_true, Bool.false_eq_true, if_false, hkind] at hrest
    rw [repliesOf_cons, (replyAndClose_runs hrest).1] at hreply
    simp only [replyOf, Option.toList_none, List.nil_append, List.mem_singleton,
      Prod.mk.injEq] at hreply
    rw [hreply.2]
    exact healthDocument_of_plain h

theorem plain_of_healthServed (h : HealthServed cfg) :
    ∀ a ∈ apiAreas, ∀ c ∈ cfg.upstreamFor a, Plain c := by
  obtain ⟨evs, _, hrun⟩ := Prog.exists_runs (replyAndClose 0 (healthResponse cfg))
  have hkind : (matchRoute [] (ascii "/health") cfg).kind = .kHealth := by
    have hpath : splitQuery (ascii "/health") = (ascii "/health", []) := by decide
    simp [matchRoute, hpath]
  apply plain_of_healthDocument
  apply h 0 [] { target := ascii "/health" } (⟨.allow [], true⟩ :: evs) (healthResponse cfg) hkind
  · refine ⟨true, evs, rfl, ?_⟩
    simp only [Prog.bind, Bool.not_true, Bool.false_eq_true, if_false, hkind]
    exact hrun
  · rfl
  · rw [repliesOf_cons, (replyAndClose_runs hrun).1]
    exact List.mem_append_right _ (List.mem_singleton_self _)

/-- The areas that have a URL of their own. -/
theorem mem_areas_of_upstream {area url : Bytes}
    (h : (readConfig env).upstreams[area]? = some url) :
    area ∈ apiAreas := by
  by_contra hno
  simp only [apiAreas, List.mem_cons, List.not_mem_nil, or_false, not_or] at hno
  simp only [readConfig, Std.ExtTreeMap.getElem?_insert, Std.compare_eq_iff_eq] at h
  obtain ⟨h₁, h₂, h₃, h₄, h₅, h₆⟩ := hno
  simp [Ne.symm h₁, Ne.symm h₂, Ne.symm h₃, Ne.symm h₄, Ne.symm h₅, Ne.symm h₆] at h

/-- The health route of a started gateway answers with its document exactly when no URL holds a
quote, a backslash or a control byte. -/
theorem health_served_iff (h : loadConfig env = .ok cfg) : HealthServed cfg ↔
    ∀ area url : Bytes, cfg.upstreams[area]? = some url → ∀ c ∈ url, Plain c := by
  constructor
  · intro hserved area url hurl
    cases url with
    | nil => exact fun c hc => absurd hc List.not_mem_nil
    | cons u us =>
      have hown : cfg.upstreamFor area = u :: us := by
        unfold Config.upstreamFor
        rw [hurl]
      rw [(loadConfig_ok h).1] at hurl
      rw [← hown]
      exact plain_of_healthServed hserved area (mem_areas_of_upstream hurl)
  · intro hplain
    apply healthServed_of_plain
    intro a _
    by_cases hne : cfg.upstreamFor a = []
    · rw [hne]
      exact fun c hc => absurd hc List.not_mem_nil
    · obtain ⟨area, hurl⟩ := upstreamFor_mem hne
      exact hplain area _ hurl

theorem loadConfig_quoted : loadConfig (usersAt (ascii "http://users/\"")) =
    .ok (readConfig (usersAt (ascii "http://users/\""))) :=
  loadConfig_of_checks (by decide +kernel) (by decide +kernel)

theorem users_health_served :
    HealthServed (readConfig (usersAt (ascii "http://users:9001/v1"))) := by
  apply (health_served_iff loadConfig_users).mpr
  intro area url hurl
  have hall : ∀ kv ∈ (readConfig (usersAt (ascii "http://users:9001/v1"))).upstreams.toList,
      kv.2.all (fun c => decide (Plain c)) = true := by decide +kernel
  have hkv := hall (area, url) (Std.ExtTreeMap.mem_toList_iff_getElem?_eq_some.mpr hurl)
  exact List.all_iff_forall_prop.mp hkv

/-- A URL with a quote passes the check at the start and breaks the document. -/
theorem quoted_health_broken : loadConfig (usersAt (ascii "http://users/\"")) =
      .ok (readConfig (usersAt (ascii "http://users/\""))) ∧
    ¬ HealthServed (readConfig (usersAt (ascii "http://users/\""))) := by
  refine ⟨loadConfig_quoted, ?_⟩
  intro hserved
  have hurl : (readConfig (usersAt (ascii "http://users/\""))).upstreamFor (ascii "users") =
      ascii "http://users/\"" := by decide +kernel
  have hplain := plain_of_healthServed hserved (ascii "users") (by decide)
  rw [hurl] at hplain
  exact absurd (hplain 34 (by decide)) (by decide)

end Gateway
