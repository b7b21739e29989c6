import Mathlib
import Gateway.ClientStream

/-! The body phase over every segmentation of the client's bytes. -/
namespace Gateway

open Program

variable {s : Socket} {cfg : Config} {req : HttpRequest} {maxBodyBytes : Int} {cl : Nat}
  {body leftover c : Bytes} {cs : List Bytes}

/-- Every read made while the body is incomplete leaves at most `maxBodyBytes` bytes in hand. -/
def ReadsFit (maxBodyBytes : Int) (cl : Nat) (leftover : Bytes) (cs : List Bytes) : Prop :=
  ∀ pre c post, cs = pre ++ c :: post → (leftover ++ pre.flatten).length < cl →
    ((leftover ++ pre.flatten ++ c).length : Int) ≤ maxBodyBytes

/-- Step 2 ends with the first `cl` bytes of the stream as the body. -/
def DeliversBody (s : Socket) (cfg : Config) (req : HttpRequest) (cl : Nat) (leftover : Bytes)
    (cs : List Bytes) : Prop :=
  ∃ rest, (bodyPhase s cfg req leftover).against (clientStream s) cs =
    (.ret (.done { req with body := (leftover ++ cs.flatten).take cl }), rest)

/-- Step 2 ends with the reply 413. -/
def RefusesBody (s : Socket) (cfg : Config) (req : HttpRequest) (leftover : Bytes)
    (cs : List Bytes) : Prop :=
  ∃ rest, (bodyPhase s cfg req leftover).against (clientStream s) cs = (.ret .tooLarge, rest)

/-- What is left of step 2 when the stream is used up or the phase has ended. -/
def bodyOutcome (s : Socket) (cfg : Config) (req : HttpRequest) (leftover : Bytes)
    (cs : List Bytes) : Io BodyPhase :=
  ((bodyPhase s cfg req leftover).against (clientStream s) cs).1

theorem readsFit_cons : ReadsFit maxBodyBytes cl body (c :: cs) ↔
    (body.length < cl → ((body ++ c).length : Int) ≤ maxBodyBytes) ∧
      ReadsFit maxBodyBytes cl (body ++ c) cs := by
  constructor
  · intro h
    constructor
    · intro hlt
      simpa using h [] c cs rfl (by simpa using hlt)
    · intro pre d post hcs hlt
      have hfit := h (c :: pre) d post (by rw [hcs, List.cons_append]) (by simpa using hlt)
      simpa using hfit
  · rintro ⟨hc, hcs⟩ pre d post heq hlt
    cases pre with
    | nil =>
      obtain ⟨rfl, rfl⟩ := List.cons.inj heq
      simpa using hc (by simpa using hlt)
    | cons b pre =>
      obtain ⟨rfl, rfl⟩ := List.cons.inj heq
      simpa using hcs pre d post rfl (by simpa using hlt)

theorem readBody_complete (hge : ¬ body.length < cl) :
    (readBody s maxBodyBytes cl body).against (clientStream s) cs =
      (.ret (.done ((body ++ cs.flatten).take cl)), cs) := by
  rw [readBody, if_neg hge, Prog.against_ret, List.take_append_of_le_length (by omega)]

/-- Fitting reads deliver exactly the declared bytes. -/
theorem readBody_of_readsFit (hcs : Segmented cs) (hlen : cl ≤ (body ++ cs.flatten).length)
    (hfit : ReadsFit maxBodyBytes cl body cs) :
    ∃ rest, (readBody s maxBodyBytes cl body).against (clientStream s) cs =
      (.ret (.done ((body ++ cs.flatten).take cl)), rest) := by
  induction cs generalizing body with
  | nil => exact ⟨[], readBody_complete (by simpa using hlen)⟩
  | cons c cs ih =>
    by_cases hlt : body.length < cl
    · obtain ⟨hc, hrest⟩ := readsFit_cons.mp hfit
      have hle := hc hlt
      rw [readBody_against hcs maxBodyBytes hlt, if_neg (by omega)]
      obtain ⟨rest, hrun⟩ := ih hcs.tail (by simpa using hlen) hrest
      exact ⟨rest, by simpa using hrun⟩
    · exact ⟨c :: cs, readBody_complete hlt⟩

/-- A read past the limit ends the phase with 413, although the body itself is within it. -/
theorem readBody_of_not_readsFit (hcs : Segmented cs)
    (hfit : ¬ ReadsFit maxBodyBytes cl body cs) :
    ∃ rest, (readBody s maxBodyBytes cl body).against (clientStream s) cs =
      (.ret .tooLarge, rest) := by
  induction cs generalizing body with
  | nil => exact (hfit (by intro pre c post h; simp at h)).elim
  | cons c cs ih =>
    have hlt : body.length < cl := by
      by_contra hge
      apply hfit
      intro pre d post _ hshort
      rw [List.length_append] at hshort
      omega
    rw [readBody_against hcs maxBodyBytes hlt]
    by_cases hbig : maxBodyBytes < ((body ++ c).length : Int)
    · exact ⟨cs, by rw [if_pos hbig]⟩
    · rw [if_neg hbig]
      apply ih hcs.tail
      intro hrest
      exact hfit (readsFit_cons.mpr ⟨fun _ => by omega, hrest⟩)

/-- With valid framing headers, step 2 is the body loop. -/
theorem bodyPhase_against {out : BodyRead} {rest : List Bytes}
    (hte : req.header (ascii "transfer-encoding") = [])
    (hcl : parseContentLength (req.header (ascii "content-length")) = some cl)
    (hmax : (cl : Int) ≤ cfg.maxBodyBytes)
    (hrun : (readBody s cfg.maxBodyBytes cl leftover).against (clientStream s) cs =
      (.ret out, rest)) :
    (bodyPhase s cfg req leftover).against (clientStream s) cs =
      (match out with
        | .disconnected => .ret .disconnected
        | .tooLarge => .ret .tooLarge
        | .done body => .ret (.done { req with body }), rest) := by
  have hle : ¬ cfg.maxBodyBytes < (cl : Int) := by omega
  simp only [bodyPhase, hte, hcl, Option.getD_some, ne_eq, not_true_eq_false, if_false,
    reduceCtorEq, and_false, hle, Prog.pure_eq]
  rw [Prog.against_bind hrun]
  cases out <;> rfl

/-- A declared body within the limit has one of two outcomes, decided by `ReadsFit`. -/
theorem bodyPhase_cases (hte : req.header (ascii "transfer-encoding") = [])
    (hcl : parseContentLength (req.header (ascii "content-length")) = some cl)
    (hmax : (cl : Int) ≤ cfg.maxBodyBytes) (hcs : Segmented cs)
    (hlen : cl ≤ (leftover ++ cs.flatten).length) :
    (ReadsFit cfg.maxBodyBytes cl leftover cs ∧ DeliversBody s cfg req cl leftover cs) ∨
    (¬ ReadsFit cfg.maxBodyBytes cl leftover cs ∧ RefusesBody s cfg req leftover cs) := by
  by_cases hfit : ReadsFit cfg.maxBodyBytes cl leftover cs
  · obtain ⟨rest, hrun⟩ := readBody_of_readsFit (s := s) hcs hlen hfit
    exact Or.inl ⟨hfit, rest, bodyPhase_against hte hcl hmax hrun⟩
  · obtain ⟨rest, hrun⟩ := readBody_of_not_readsFit (s := s) hcs hfit
    exact Or.inr ⟨hfit, rest, bodyPhase_against hte hcl hmax hrun⟩

theorem not_refuses_of_delivers (h : DeliversBody s cfg req cl leftover cs) :
    ¬ RefusesBody s cfg req leftover cs := by
  rintro ⟨rest', hr⟩
  obtain ⟨rest, hd⟩ := h
  simp [hd] at hr

/-- The declared body is delivered exactly when no read runs past the limit, the phase ends
with 413 otherwise, and two splits of one stream agree exactly when both or neither fit. -/
theorem body_delivered_iff_reads_fit {leftover' : Bytes} {cs' : List Bytes}
    (hte : req.header (ascii "transfer-encoding") = [])
    (hcl : parseContentLength (req.header (ascii "content-length")) = some cl)
    (hmax : (cl : Int) ≤ cfg.maxBodyBytes) (hcs : Segmented cs) (hcs' : Segmented cs')
    (hlen : cl ≤ (leftover ++ cs.flatten).length)
    (hsame : leftover' ++ cs'.flatten = leftover ++ cs.flatten) :
    (DeliversBody s cfg req cl leftover cs ↔ ReadsFit cfg.maxBodyBytes cl leftover cs) ∧
    (RefusesBody s cfg req leftover cs ↔ ¬ ReadsFit cfg.maxBodyBytes cl leftover cs) ∧
    (bodyOutcome s cfg req leftover cs = bodyOutcome s cfg req leftover' cs' ↔
      (ReadsFit cfg.maxBodyBytes cl leftover cs ↔
        ReadsFit cfg.maxBodyBytes cl leftover' cs')) := by
  have hlen' : cl ≤ (leftover' ++ cs'.flatten).length := by rw [hsame]; exact hlen
  have hcases := bodyPhase_cases (s := s) hte hcl hmax hcs hlen
  have hcases' := bodyPhase_cases (s := s) hte hcl hmax hcs' hlen'
  refine ⟨?_, ?_, ?_⟩
  · rcases hcases with ⟨hf, hd⟩ | ⟨hf, hr⟩
    · exact iff_of_true hd hf
    · exact iff_of_false (fun hd => not_refuses_of_delivers hd hr) hf
  · rcases hcases with ⟨hf, hd⟩ | ⟨hf, hr⟩
    · exact iff_of_false (not_refuses_of_delivers hd) (not_not_intro hf)
    · exact iff_of_true hr hf
  · rcases hcases with ⟨hf, rest, hd⟩ | ⟨hf, rest, hd⟩ <;>
      rcases hcases' with ⟨hf', rest', hd'⟩ | ⟨hf', rest', hd'⟩ <;>
      simp [bodyOutcome, hd, hd', hf, hf', hsame]

/-- A head that declares 1024 bytes. -/
def postHead : Bytes := ascii "POST /api/users HTTP/1.1\r\nContent-Length: 1024\r\n"

def postRequest : HttpRequest where
  method := ascii "POST"
  target := ascii "/api/users"
  path := ascii "/api/users"
  version := ascii "HTTP/1.1"
  headers := (∅ : HeaderMap).insert (ascii "content-length") (ascii "1024")

def postConfig : Config where
  maxBodyBytes := 1024

theorem parseHttpRequest_postHead : parseHttpRequest postHead = some postRequest := by
  decide +kernel

theorem postRequest_framing :
    postRequest.header (ascii "transfer-encoding") = [] ∧
    parseContentLength (postRequest.header (ascii "content-length")) = some 1024 := by
  decide +kernel

/-- The body in one piece and the same bytes in two pieces have the same outcome. -/
theorem postRequest_delivered :
    (DeliversBody 4 postConfig postRequest 1024 [] [List.replicate 1024 65] ↔
      ReadsFit 1024 1024 [] [List.replicate 1024 65]) ∧
    (RefusesBody 4 postConfig postRequest [] [List.replicate 1024 65] ↔
      ¬ ReadsFit 1024 1024 [] [List.replicate 1024 65]) ∧
    (bodyOutcome 4 postConfig postRequest [] [List.replicate 1024 65] =
        bodyOutcome 4 postConfig postRequest (List.replicate 24 65)
          [List.replicate 1000 65] ↔
      (ReadsFit 1024 1024 [] [List.replicate 1024 65] ↔
        ReadsFit 1024 1024 (List.replicate 24 65) [List.replicate 1000 65])) :=
  body_delivered_iff_reads_fit postRequest_framing.1 postRequest_framing.2
    (show ((1024 : Nat) : Int) ≤ postConfig.maxBodyBytes by decide) (by decide +kernel)
    (by decide +kernel) (by decide +kernel) (by decide +kernel)

/-- One byte of a further request in the read that completes the body turns it into a 413. -/
theorem postRequest_pipelined :
    parseHttpRequest postHead = some postRequest ∧
    Segmented [List.replicate 1025 65] ∧
    1024 ≤ ([] ++ [List.replicate 1025 (65 : UInt8)].flatten).length ∧
    ¬ DeliversBody 4 postConfig postRequest 1024 [] [List.replicate 1025 65] := by
  have hcs : Segmented [List.replicate 1025 65] := by decide +kernel
  refine ⟨parseHttpRequest_postHead, hcs, by decide +kernel, ?_⟩
  have hfit : ¬ ReadsFit 1024 1024 [] [List.replicate 1025 65] := by
    intro h
    exact absurd (h [] _ [] rfl (by decide +kernel)) (by decide +kernel)
  have hmax : ((1024 : Nat) : Int) ≤ postConfig.maxBodyBytes := by decide
  have hlen : 1024 ≤ ([] ++ [List.replicate 1025 (65 : UInt8)].flatten).length := by
    decide +kernel
  rcases bodyPhase_cases (s := 4) postRequest_framing.1 postRequest_framing.2 hmax hcs hlen with
    ⟨hf, _⟩ | ⟨_, hr⟩
  · exact (hfit hf).elim
  · exact fun hd => not_refuses_of_delivers hd hr

end Gateway
