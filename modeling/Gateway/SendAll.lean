import Mathlib
import Gateway.HandleClient
import Gateway.ForwardRuns

/-! Delivery through the two copies of `sendAll`, at every moment of every run. -/
namespace Gateway

open Program

variable {s : Socket} {data : Bytes} {sent : Nat} {evs : Trace} {p q : Io Bool}

/-- The result of a send. -/
def sendValueOf : Event Op Res → Option Int
  | ⟨.send _ _ _, r⟩ => some r.value
  | _ => none

/-- The results of the sends of a run, in order. -/
def sendValues (evs : Trace) : List Int := evs.filterMap sendValueOf

/-- How many bytes these results report as accepted. -/
def acceptedBy (values : List Int) : Nat := (values.map Int.toNat).sum

/-- The failure tests `n == SOCKET_ERROR || n == 0` and `n <= 0` agree on what `send` returns. -/
theorem SendResult.failed_iff {len : Nat} (n : SendResult len) :
    n.value = -1 ∨ n.value = 0 ↔ n.value ≤ 0 := by
  have := n.range
  omega

/-- The copies make the same calls and return the same value, whatever the calls return. -/
theorem HandleClient.sendAll_eq (s : Socket) (data : Bytes) (sent : Nat) :
    HandleClient.sendAll s data sent = Proxy.sendAll s data sent := by
  induction hk : data.length - sent using Nat.strong_induction_on generalizing sent with
  | _ k ih =>
    rw [HandleClient.sendAll, Proxy.sendAll]
    by_cases hlt : sent < data.length
    · rw [if_pos hlt, if_pos hlt]
      dsimp only
      congr 1
      funext n
      by_cases hn : n.value ≤ 0
      · rw [if_pos (n.failed_iff.mpr hn), if_pos hn]
      · rw [if_neg (mt n.failed_iff.mp hn), if_neg hn]
        exact ih _ (by omega) _ rfl
    · rw [if_neg hlt, if_neg hlt]

theorem sendSize_bounds {left : Nat} (h : 0 < left) :
    1 ≤ sendSize left ∧ sendSize left ≤ 65536 ∧ sendSize left ≤ left := by
  unfold sendSize
  split <;> omega

/-- After any number of sends the loop stands behind what was accepted, or has failed before the
end of the data. -/
theorem Proxy.sendAll_leads (h : Prog.Leads (Proxy.sendAll s data sent) evs q)
    (hs : sent ≤ data.length) : ∃ n, n = acceptedBy (sendValues evs) ∧ sent + n ≤ data.length ∧
      sentBytes evs = (data.drop sent).take n ∧
      (q = Proxy.sendAll s data (sent + n) ∧ evs.length ≤ n ∧ (∀ v ∈ sendValues evs, 0 < v) ∨
        q = .ret false ∧ evs.length ≤ n + 1 ∧ sent + n < data.length ∧
          ∃ v ∈ sendValues evs, v ≤ 0) := by
  induction evs generalizing sent with
  | nil =>
    obtain rfl : q = Proxy.sendAll s data sent := by simpa [Prog.Leads] using h
    exact ⟨0, rfl, hs, rfl, .inl ⟨rfl, le_refl _, by simp [sendValues]⟩⟩
  | cons e evs ih =>
    rcases Nat.lt_or_ge sent data.length with hlt | hge
    · rw [Proxy.sendAll_of_lt hlt] at h
      obtain ⟨r, rfl, h⟩ := h
      obtain ⟨hbytes, hle⟩ := sentByEvent_send (s := s) r
      dsimp only at h
      by_cases hn : r.value ≤ 0
      · rw [if_pos hn] at h
        obtain ⟨rfl, rfl⟩ := Prog.leads_ret h
        have hz : r.value.toNat = 0 := by omega
        refine ⟨0, ?_, by omega, ?_, .inr ⟨rfl, le_refl _, hlt, r.value, List.mem_cons_self, hn⟩⟩
        · change 0 = r.value.toNat + 0
          omega
        · rw [sentBytes_cons, hbytes, hz]
          rfl
      · rw [if_neg hn] at h
        obtain ⟨n, hval, hend, hrest, hq⟩ := ih h (by omega)
        refine ⟨r.value.toNat + n, ?_, by omega, ?_, ?_⟩
        · change r.value.toNat + n = r.value.toNat + acceptedBy (sendValues evs)
          rw [hval]
        · rw [sentBytes_cons, hbytes, hrest, ← List.drop_drop, ← List.take_add]
        · rw [← Nat.add_assoc]
          rcases hq with ⟨rfl, hcount, hall⟩ | ⟨rfl, hcount, hshort, v, hv, hfail⟩
          · refine .inl ⟨rfl, ?_, List.forall_mem_cons.mpr ⟨by omega, hall⟩⟩
            rw [List.length_cons]
            omega
          · refine .inr ⟨rfl, ?_, hshort, v, List.mem_cons_of_mem _ hv, hfail⟩
            rw [List.length_cons]
            omega
    · rw [Proxy.sendAll_of_ge hge] at h
      exact h.elim

/-- What the socket has accepted so far is the beginning of the data, as long as the results say. -/
theorem Proxy.sendAll_accepted (h : Prog.Leads (Proxy.sendAll s data 0) evs q) :
    sentBytes evs = data.take (acceptedBy (sendValues evs)) ∧
      (sentBytes evs).length = acceptedBy (sendValues evs) ∧ evs.length ≤ data.length := by
  obtain ⟨n, rfl, hend, hbytes, hq⟩ := Proxy.sendAll_leads h (Nat.zero_le _)
  rw [List.drop_zero] at hbytes
  refine ⟨hbytes, ?_, ?_⟩
  · rw [hbytes, List.length_take]
    omega
  · rcases hq with ⟨-, hcount, -⟩ | ⟨-, hcount, hshort, -⟩ <;> omega

/-- The next chunk lies in the data right behind what was accepted. -/
theorem Proxy.sendAll_requests {o : Op} {k : Res o → Io Bool}
    (h : Prog.Leads (Proxy.sendAll s data 0) evs (.call o k)) :
    ∃ chunk, chunk = sendSize (data.length - (sentBytes evs).length) ∧ 1 ≤ chunk ∧
      chunk ≤ 65536 ∧ (sentBytes evs).length + chunk ≤ data.length ∧
      o = .send s ((data.drop (sentBytes evs).length).take chunk) 0 := by
  obtain ⟨-, hlen, -⟩ := Proxy.sendAll_accepted h
  obtain ⟨n, hn, hend, -, ⟨hq, -⟩ | ⟨hq, -⟩⟩ := Proxy.sendAll_leads h (Nat.zero_le _)
  · rw [Nat.zero_add] at hq
    rcases Nat.lt_or_ge n data.length with hlt | hge
    · rw [Proxy.sendAll_of_lt hlt] at hq
      obtain ⟨rfl, -⟩ := Prog.call.inj hq
      rw [hlen, ← hn]
      obtain ⟨hlo, hhi, hleft⟩ := sendSize_bounds (Nat.sub_pos_of_lt hlt)
      exact ⟨_, rfl, hlo, hhi, by omega, rfl⟩
    · rw [Proxy.sendAll_of_ge hge] at hq
      cases hq
  · cases hq

/-- The loop returns true exactly when everything was accepted. -/
theorem Proxy.sendAll_returns {ok : Bool} (h : Prog.Runs (Proxy.sendAll s data 0) evs ok) :
    ok = true ↔ acceptedBy (sendValues evs) = data.length := by
  obtain ⟨n, rfl, hend, -, ⟨hq, -⟩ | ⟨hq, -, hshort, -⟩⟩ :=
    Proxy.sendAll_leads (Prog.runs_iff_leads.mp h) (Nat.zero_le _)
  · rw [Nat.zero_add] at hq hend
    rcases Nat.lt_or_ge (acceptedBy (sendValues evs)) data.length with hlt | hge
    · rw [Proxy.sendAll_of_lt hlt] at hq
      cases hq
    · rw [Proxy.sendAll_of_ge hge] at hq
      obtain rfl := Prog.ret.inj hq
      simp only [true_iff]
      omega
  · obtain rfl := Prog.ret.inj hq
    simp only [Bool.false_eq_true, false_iff]
    omega

/-- The next call is made exactly while bytes are left and no send has failed. -/
theorem Proxy.sendAll_calls_iff (h : Prog.Leads (Proxy.sendAll s data 0) evs q) :
    (∃ o k, q = .call o k) ↔ sentBytes evs ≠ data ∧ ∀ v ∈ sendValues evs, 0 < v := by
  obtain ⟨hbytes, hlen, -⟩ := Proxy.sendAll_accepted h
  obtain ⟨n, rfl, hend, -, ⟨rfl, -, hall⟩ | ⟨rfl, -, hshort, v, hv, hfail⟩⟩ :=
    Proxy.sendAll_leads h (Nat.zero_le _)
  · rw [Nat.zero_add] at hend ⊢
    rcases Nat.lt_or_ge (acceptedBy (sendValues evs)) data.length with hlt | hge
    · rw [Proxy.sendAll_of_lt hlt]
      refine iff_of_true ⟨_, _, rfl⟩ ⟨?_, hall⟩
      intro hwhole
      rw [hwhole] at hlen
      omega
    · rw [Proxy.sendAll_of_ge hge]
      refine iff_of_false (by simp) ?_
      rintro ⟨hpart, -⟩
      exact hpart (hbytes.trans (List.take_of_length_le hge))
  · refine iff_of_false (by simp) ?_
    rintro ⟨-, hall⟩
    exact absurd (hall v hv) (by omega)

/-- The loop returns false exactly after a send that failed. -/
theorem Proxy.sendAll_fails {ok : Bool} (h : Prog.Runs (Proxy.sendAll s data 0) evs ok) :
    ok = false ↔ ∃ v ∈ sendValues evs, v ≤ 0 := by
  obtain ⟨n, rfl, hend, -, ⟨hq, -, hall⟩ | ⟨hq, -, hshort, hfail⟩⟩ :=
    Proxy.sendAll_leads (Prog.runs_iff_leads.mp h) (Nat.zero_le _)
  · have hno : ¬ ∃ v ∈ sendValues evs, v ≤ 0 := by
      rintro ⟨v, hv, hle⟩
      exact absurd (hall v hv) (by omega)
    refine iff_of_false ?_ hno
    rintro rfl
    rw [Nat.zero_add] at hq hend
    rcases Nat.lt_or_ge (acceptedBy (sendValues evs)) data.length with hlt | hge
    · rw [Proxy.sendAll_of_lt hlt] at hq
      cases hq
    · rw [Proxy.sendAll_of_ge hge] at hq
      cases hq
  · exact iff_of_true (Prog.ret.inj hq) hfail

/-- The narrowing of the chunk size to `int` does not change it. -/
theorem toInt_chunk {chunk : Nat} (h : chunk ≤ 65536) :
    ((BitVec.ofNat 64 chunk).truncate 32).toInt = chunk := by
  rw [BitVec.truncate_eq_setWidth, BitVec.toInt_eq_toNat_of_lt] <;>
    simp only [BitVec.toNat_setWidth, BitVec.toNat_ofNat] <;> omega

/-- Both copies of `sendAll` are one loop, which delivers every byte once and in order, whatever
`send` returns: it goes on while bytes are left and no send has failed, and fails only by a send. -/
theorem sendAll_delivers (s : Socket) (data : Bytes) :
    (∀ sent, HandleClient.sendAll s data sent = Proxy.sendAll s data sent) ∧
    (∀ p, p = HandleClient.sendAll s data 0 ∨ p = Proxy.sendAll s data 0 →
      (∀ evs q, p.Leads evs q →
        sentBytes evs <+: data ∧ (sentBytes evs).length = acceptedBy (sendValues evs) ∧
        evs.length ≤ data.length ∧
        ((∃ o k, q = .call o k) ↔ sentBytes evs ≠ data ∧ ∀ v ∈ sendValues evs, 0 < v) ∧
        ∀ o k, q = .call o k →
          ∃ chunk, chunk = sendSize (data.length - (sentBytes evs).length) ∧ 1 ≤ chunk ∧
            chunk ≤ 65536 ∧ ((BitVec.ofNat 64 chunk).truncate 32).toInt = chunk ∧
            (sentBytes evs).length + chunk ≤ data.length ∧
            o = .send s ((data.drop (sentBytes evs).length).take chunk) 0) ∧
      ∀ evs ok, p.Runs evs ok → (ok = true ↔ sentBytes evs = data) ∧
        (ok = false ↔ ∃ v ∈ sendValues evs, v ≤ 0)) ∧
    ∀ evs evs' ok ok', (HandleClient.sendAll s data 0).Runs evs ok →
      (Proxy.sendAll s data 0).Runs evs' ok' → sendValues evs = sendValues evs' →
      ok = ok' ∧ sentBytes evs = sentBytes evs' := by
  refine ⟨HandleClient.sendAll_eq s data, ?_⟩
  rw [HandleClient.sendAll_eq]
  constructor
  · intro p hp
    obtain rfl : p = Proxy.sendAll s data 0 := or_self_iff.mp hp
    constructor
    · intro evs q h
      obtain ⟨hbytes, hlen, hcount⟩ := Proxy.sendAll_accepted h
      refine ⟨hbytes ▸ List.take_prefix _ _, hlen, hcount, Proxy.sendAll_calls_iff h, ?_⟩
      rintro o k rfl
      obtain ⟨chunk, hchunk, hlo, hhi, hinside, ho⟩ := Proxy.sendAll_requests h
      exact ⟨chunk, hchunk, hlo, hhi, toInt_chunk hhi, hinside, ho⟩
    · intro evs ok h
      obtain ⟨hbytes, hlen, -⟩ := Proxy.sendAll_accepted (Prog.runs_iff_leads.mp h)
      refine ⟨?_, Proxy.sendAll_fails h⟩
      rw [Proxy.sendAll_returns h]
      constructor
      · intro hall
        rw [hbytes, hall, List.take_length]
      · intro hall
        rw [← hlen, hall]
  · intro evs evs' ok ok' h h' hvalues
    obtain ⟨hbytes, -⟩ := Proxy.sendAll_accepted (Prog.runs_iff_leads.mp h)
    obtain ⟨hbytes', -⟩ := Proxy.sendAll_accepted (Prog.runs_iff_leads.mp h')
    have hok := Proxy.sendAll_returns h
    rw [hvalues, ← Proxy.sendAll_returns h'] at hok
    exact ⟨Bool.eq_iff_iff.mpr hok, by rw [hbytes, hbytes', hvalues]⟩

/-- Five bytes that the socket takes in two parts. -/
theorem partialSends_delivered : ∃ evs, (Proxy.sendAll 7 (ascii "hello") 0).Runs evs true ∧
    (HandleClient.sendAll 7 (ascii "hello") 0).Runs evs true ∧ sendValues evs = [2, 3] ∧
    sentBytes evs = ascii "hello" := by
  obtain ⟨evs, hrun, hvalues⟩ : ∃ evs, (Proxy.sendAll 7 (ascii "hello") 0).Runs evs true ∧
      sendValues evs = [2, 3] := by
    have hfirst : ¬ (2 : Int) ≤ 0 := by decide
    have hsecond : ¬ (3 : Int) ≤ 0 := by decide
    rw [Proxy.sendAll_of_lt (by decide)]
    refine ⟨_, ⟨⟨2, .other 0, .inr (by decide)⟩, [⟨.send 7 (ascii "llo") 0,
      ⟨3, .other 0, .inr (by decide)⟩⟩], rfl, ?_⟩, rfl⟩
    simp only [hfirst, if_false]
    rw [Proxy.sendAll_of_lt (by decide)]
    refine ⟨⟨3, .other 0, .inr (by decide)⟩, [], rfl, ?_⟩
    simp only [hsecond, if_false]
    rw [Proxy.sendAll_of_ge (by decide)]
    exact ⟨rfl, rfl⟩
  obtain ⟨hsame, hdelivers, -⟩ := sendAll_delivers 7 (ascii "hello")
  have hsent := ((hdelivers _ (.inr rfl)).2 evs true hrun).1.mp rfl
  exact ⟨evs, hrun, hsame 0 ▸ hrun, hvalues, hsent⟩

end Gateway
