import Mathlib
import Gateway.SendAll

/-! Which calls each part of a handler may make. -/
namespace Gateway

open Program Search

/-- A call of the operating system, the limiter or the verifier; a send sets no flag. -/
def IsSystemCall : Op → Prop
  | .invoke _ => False
  | .send _ _ flags => flags = 0
  | _ => True

/-- A call on one open socket; a send sets no flag. -/
def OnSocket (s : Socket) : Op → Prop
  | .send s' _ flags => s' = s ∧ flags = 0
  | .recv s' _ | .getFl s' | .setFl s' _ | .connect s' _ | .select s' _ | .getSoError s'
  | .setTimeout s' _ _ => s' = s
  | _ => False

theorem OnSocket.isSystemCall {s : Socket} {o : Op} (h : OnSocket s o) : IsSystemCall o := by
  cases o with
  | send s' data flags => exact h.2
  | invoke i => exact h.elim
  | _ => trivial

/-- `sendAll` does nothing but send. -/
theorem Proxy.sendAll_sends (s : Socket) (data : Bytes) (sent : Nat) :
    (Proxy.sendAll s data sent).Calls fun o => ∃ chunk, o = .send s chunk 0 := by
  induction hk : data.length - sent using Nat.strong_induction_on generalizing sent with
  | _ k ih =>
    rcases Nat.lt_or_ge sent data.length with hlt | hge
    · rw [Proxy.sendAll_of_lt hlt]
      refine ⟨⟨_, rfl⟩, fun n => ?_⟩
      dsimp only
      by_cases hn : n.value ≤ 0
      · rw [if_pos hn]
        trivial
      · rw [if_neg hn]
        exact ih _ (by omega) _ rfl
    · rw [Proxy.sendAll_of_ge hge]
      trivial

theorem HandleClient.sendAll_calls (s : Socket) (data : Bytes) (sent : Nat) :
    (HandleClient.sendAll s data sent).Calls fun o => ∃ chunk, o = .send s chunk 0 := by
  rw [HandleClient.sendAll_eq]
  exact Proxy.sendAll_sends s data sent

theorem connectWithTimeout_calls (s : Socket) (ai : AddrInfo) (timeoutMs : Int) :
    (connectWithTimeout s ai timeoutMs).Calls (OnSocket s) := by
  refine ⟨rfl, fun flags => ?_⟩
  cases flags with
  | none => trivial
  | some flags =>
    refine ⟨rfl, fun b => ?_⟩
    cases b with
    | false => trivial
    | true =>
      refine ⟨rfl, fun c => ?_⟩
      cases c with
      | done => exact ⟨rfl, fun _ => trivial⟩
      | error e =>
        by_cases he : e = .EINPROGRESS
        · simp only [Prog.bind, he, ne_eq, not_true_eq_false, if_false]
          refine ⟨rfl, fun sel => ?_⟩
          cases sel with
          | timeout => trivial
          | error => trivial
          | ready =>
            refine ⟨rfl, fun so => ?_⟩
            by_cases hso : so = some 0
            · simp only [Prog.bind, hso, not_true_eq_false, if_false]
              exact ⟨rfl, fun _ => trivial⟩
            · simp only [Prog.bind, hso, not_false_eq_true, if_true]
              trivial
        · simp only [Prog.bind, he, ne_eq, not_false_eq_true, if_true]
          trivial

theorem connectAny_calls (timeoutMs : Int) (list : List AddrInfo) (timedOut : Bool) :
    (connectAny timeoutMs list timedOut).Calls IsSystemCall := by
  induction list generalizing timedOut with
  | nil => trivial
  | cons ai rest ih =>
    refine ⟨trivial, fun so => ?_⟩
    cases so with
    | none => exact ih timedOut
    | some s =>
      apply Prog.calls_bind
        (Prog.calls_mono (fun _ h => h.isSystemCall) (connectWithTimeout_calls s ai timeoutMs))
      rintro ⟨connected, t⟩
      cases connected with
      | true => trivial
      | false =>
        refine ⟨trivial, fun _ => ?_⟩
        cases t with
        | true => trivial
        | false => exact ih false

theorem Proxy.sendAll_calls (s : Socket) (data : Bytes) (sent : Nat) :
    (Proxy.sendAll s data sent).Calls (OnSocket s) := by
  apply Prog.calls_mono _ (Proxy.sendAll_sends s data sent)
  rintro o ⟨chunk, rfl⟩
  exact ⟨rfl, rfl⟩

theorem recvUpstream_calls (s : Socket) (raw : Bytes) :
    (recvUpstream s raw).Calls (OnSocket s) := by
  induction hk : kMaxUpstreamBytes - raw.length using Nat.strong_induction_on
    generalizing raw with
  | _ k ih =>
    rw [recvUpstream]
    by_cases hlt : raw.length < kMaxUpstreamBytes
    · rw [if_pos hlt]
      refine ⟨rfl, fun n => ?_⟩
      cases n with
      | closed => trivial
      | error e => trivial
      | data bytes pos le => exact ih _ (by rw [List.length_append]; omega) _ rfl
    · rw [if_neg hlt]
      trivial

theorem exchange_calls (s : Socket) (wire : Bytes) (timeoutMs : Int) :
    (exchange s wire timeoutMs).Calls IsSystemCall := by
  refine ⟨trivial, fun _ => ⟨trivial, fun _ => ?_⟩⟩
  have hsystem : ∀ o, OnSocket s o → IsSystemCall o := fun _ h => h.isSystemCall
  apply Prog.calls_bind (Prog.calls_mono hsystem (Proxy.sendAll_calls s wire 0))
  intro sentOk
  have hlast : ∀ p : Bytes × Bool, Prog.Calls IsSystemCall (do
      closeSocket s
      if kMaxUpstreamBytes ≤ p.1.length then
        return { error := ascii "upstream response too large" }
      if !sentOk || p.2 || p.1.isEmpty then return { error := ascii "upstream io failed" }
      return parseUpstreamResponse p.1 : Io ProxyResult) := by
    intro p
    refine ⟨trivial, fun _ => ?_⟩
    simp only [Prog.bind]
    split
    · trivial
    · split <;> trivial
  cases sentOk with
  | true => exact Prog.calls_bind (Prog.calls_mono hsystem (recvUpstream_calls s [])) hlast
  | false => exact hlast ([], false)

theorem forwardRequest_calls (base : Bytes) (req : HttpRequest) (path : Bytes) (auth : AuthInfo)
    (timeoutMs : Int) : ∃ rest : Io ProxyResult,
      forwardRequest base req path auth timeoutMs =
        .call (.invoke (.forwardRequest base req path auth)) (fun _ => rest) ∧
      rest.Calls IsSystemCall := by
  refine ⟨_, rfl, ?_⟩
  split
  · trivial
  · refine ⟨trivial, fun resolved => ?_⟩
    simp only [Prog.bind]
    split
    · split
      · exact ⟨trivial, fun _ => trivial⟩
      · trivial
    · apply Prog.calls_bind (connectAny_calls timeoutMs resolved.list false)
      rintro ⟨connected, t⟩
      refine ⟨trivial, fun _ => ?_⟩
      cases connected with
      | none => trivial
      | some s => exact exchange_calls s _ timeoutMs

/-- The responses that a connection can be answered with. -/
inductive Built : HttpResponse → Prop
  | error (status : Nat) (code message : Bytes) : Built (jsonError status code message)
  | health (cfg : Config) : Built (healthResponse cfg)
  | relayed (raw : Bytes) : Built (relayResponse (parseUpstreamResponse raw))

/-- A call that a connection makes: a system call, a marker, or a reply with a built response. -/
def HandlerCall : Op → Prop
  | .invoke (.reply _ resp) => Built resp
  | .invoke (.forwardRequest _ _ _ _) => True
  | o => IsSystemCall o

theorem handlerCall_of_systemCall (o : Op) (h : IsSystemCall o) : HandlerCall o := by
  cases o <;> first | exact h.elim | exact h

/-- Whatever `forwardRequest` returns is answered with a built response. -/
theorem built_of_outcome {base : Bytes} {pr : ProxyResult} (h : Outcome base pr) :
    Built (relayResponse pr) := by
  cases h with
  | badUrl herror => exact .error 502 _ _
  | noAddress => exact .error 502 _ _
  | connectTimeout => exact .error 504 _ _
  | connectFailed => exact .error 502 _ _
  | tooLarge => exact .error 502 _ _
  | ioFailed => exact .error 502 _ _
  | answered raw => exact .relayed raw

end Gateway
