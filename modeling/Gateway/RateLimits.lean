import Mathlib
import Gateway.RateLimiter

/-! What a client can tell of the rate limiter: its own calls, and no one else's. -/
namespace Gateway

open FixedWindow RateLimiter

variable {perMin t : Int} {ip : Bytes} {c : Call} {calls : List Call}

/-- The clock readings are positive and do not go back from one lock holder to the next. -/
def Timely (calls : List Call) : Prop :=
  (∀ c ∈ calls, 0 < c.now) ∧ calls.Pairwise fun c d => c.now ≤ d.now

instance : Decidable (Timely calls) := inferInstanceAs (Decidable (_ ∧ _))

def callsOf (ip : Bytes) (calls : List Call) : List Call := calls.filter fun c => c.ip = ip

/-- A limiter that has served nobody yet. -/
def freshLimiter (perMin : Int) : RateLimiter := { perMin }

/-- The window of an address when nothing is ever purged. -/
def windowOf (perMin : Int) (calls : List Call) (ip : Bytes) : Option Window :=
  after Call.now perMin 60 none (callsOf ip calls)

theorem callsOf_append (ip : Bytes) (calls calls' : List Call) :
    callsOf ip (calls ++ calls') = callsOf ip calls ++ callsOf ip calls' := List.filter_append ..

@[simp] theorem callsOf_callsOf : callsOf ip (callsOf ip calls) = callsOf ip calls := by
  simp [callsOf]

theorem Timely.of_append {calls' : List Call} (h : Timely (calls ++ calls')) : Timely calls := by
  obtain ⟨hpos, hsorted⟩ := h
  exact ⟨fun c hc => hpos c (List.mem_append_left _ hc), (List.pairwise_append.mp hsorted).1⟩

theorem Timely.last (h : Timely (calls ++ [c])) : (∀ d ∈ calls, d.now ≤ c.now) ∧ 0 < c.now := by
  obtain ⟨hpos, hsorted⟩ := h
  constructor
  · intro d hd
    exact (List.pairwise_append.mp hsorted).2.2 d hd c (List.mem_singleton.mpr rfl)
  · exact hpos c (List.mem_append_right _ (List.mem_singleton.mpr rfl))

theorem Timely.callsOf (h : Timely calls) (ip : Bytes) : Timely (callsOf ip calls) :=
  ⟨fun c hc => h.1 c (List.mem_of_mem_filter hc), h.2.filter _⟩

theorem windowOf_snoc : windowOf perMin (calls ++ [c]) =
    Function.update (windowOf perMin calls) c.ip
      (some (tick perMin 60 (windowOf perMin calls c.ip) c.now).2) := by
  funext ip
  by_cases hip : ip = c.ip
  · subst hip
    simp [windowOf, callsOf, after_append]
  · rw [Function.update_of_ne hip]
    have hne : c.ip ≠ ip := Ne.symm hip
    simp [windowOf, callsOf, hne]

theorem afterCalls_perMin (perMin : Int) (calls : List Call) :
    ((freshLimiter perMin).afterCalls calls).perMin = perMin := by
  induction calls using List.reverseRecOn with
  | nil => rfl
  | append_singleton calls c ih =>
    rw [afterCalls_append]
    exact allow_perMin.trans ih

/-- After any calls the limiter holds the windows of all addresses, but for ended ones. -/
theorem tracks_run (hmin : 0 < perMin) (h : Timely calls) (ht : ∀ c ∈ calls, c.now ≤ t) :
    Tracks ((freshLimiter perMin).afterCalls calls) (windowOf perMin calls) t := by
  induction calls using List.reverseRecOn generalizing t with
  | nil =>
    constructor
    · intro ip b hb
      simp [afterCalls, freshLimiter] at hb
    · rintro ip - v ⟨⟩
  | append_singleton calls c ih =>
    obtain ⟨hlast, hnow⟩ := h.last
    have hlimit := afterCalls_perMin perMin calls
    obtain ⟨-, hstep⟩ := (ih h.of_append hlast).allow c.ip (by rwa [hlimit]) (le_refl c.now) hnow
    rw [hlimit] at hstep
    rw [windowOf_snoc, afterCalls_append]
    exact Tracks.mono hstep (ht c (by simp))

/-- A verdict depends on the earlier calls of the same address only. -/
theorem allow_eq_tick (hmin : 0 < perMin) (h : Timely (calls ++ [c])) :
    (((freshLimiter perMin).afterCalls calls).allow c.ip c.now).1 =
      (tick perMin 60 (windowOf perMin calls c.ip) c.now).1 := by
  obtain ⟨hlast, hnow⟩ := h.last
  have hlimit := afterCalls_perMin perMin calls
  obtain ⟨hverdict, -⟩ := (tracks_run hmin h.of_append hlast).allow c.ip (by rwa [hlimit])
    (le_refl c.now) hnow
  rw [hlimit] at hverdict
  exact hverdict

/-- The history of one address is a run of its own window. -/
theorem history_eq_run (hmin : 0 < perMin) (h : Timely calls) (ip : Bytes) :
    ((freshLimiter perMin).history calls).filter (fun p => p.1.ip = ip) =
      run Call.now perMin 60 none (callsOf ip calls) := by
  induction calls using List.reverseRecOn with
  | nil => rfl
  | append_singleton calls c ih =>
    rw [history_append, List.filter_append, ih h.of_append, callsOf_append, run_append]
    congr 1
    by_cases hip : c.ip = ip
    · have hverdict := allow_eq_tick hmin h
      subst hip
      simp [history, callsOf, run, hverdict, windowOf]
    · simp [history, callsOf, hip]

theorem history_of_callsOf (ip : Bytes) (l : RateLimiter) :
    (l.history (callsOf ip calls)).filter (fun p => p.1.ip = ip) =
      l.history (callsOf ip calls) := by
  rw [List.filter_eq_self]
  induction calls generalizing l with
  | nil => intro p hp; cases hp
  | cons c calls ih =>
    by_cases hip : c.ip = ip
    · rw [callsOf, List.filter_cons_of_pos (by simpa using hip)]
      intro p hp
      rcases List.mem_cons.mp hp with rfl | hp
      · simpa using hip
      · exact ih _ p hp
    · rw [callsOf, List.filter_cons_of_neg (by simpa using hip)]
      exact ih l

/-- Every call gets the verdict it would get if its address were the only one. -/
theorem clients_isolated (hmin : 0 < perMin) (h : Timely calls) (ip : Bytes) :
    ((freshLimiter perMin).history calls).filter (fun p => p.1.ip = ip) =
      (freshLimiter perMin).history (callsOf ip calls) := by
  rw [history_eq_run hmin h, ← history_of_callsOf, history_eq_run hmin (h.callsOf ip),
    callsOf_callsOf]

/-- Two clients, the first of which comes back within its minute. -/
def twoClients : List Call :=
  [⟨ascii "10.0.0.1", 5⟩, ⟨ascii "10.0.0.2", 5⟩, ⟨ascii "10.0.0.1", 64⟩]

theorem twoClients_isolated :
    ((freshLimiter 1).history twoClients).filter (fun p => p.1.ip = ascii "10.0.0.1") =
      (freshLimiter 1).history (callsOf (ascii "10.0.0.1") twoClients) :=
  clients_isolated (by decide) (by decide) (ascii "10.0.0.1")

/-- The calls of an address that were allowed at readings in `[a, b)`. -/
def allowedIn (ip : Bytes) (a b : Int) (h : List (Call × Bool)) : Nat :=
  h.countP fun p => p.2 && decide (a ≤ p.1.now ∧ p.1.now < b) && decide (p.1.ip = ip)

/-- The calls of an address that were allowed. -/
def allowedOf (ip : Bytes) (h : List (Call × Bool)) : Nat :=
  h.countP fun p => p.2 && decide (p.1.ip = ip)

/-- The history of one address from some call on. -/
theorem history_from (hmin : 0 < perMin) {before rest : List Call} (h : Timely (before ++ rest))
    (ip : Bytes) :
    (((freshLimiter perMin).afterCalls before).history rest).filter (fun p => p.1.ip = ip) =
      run Call.now perMin 60 (windowOf perMin before ip) (callsOf ip rest) := by
  have hall := history_eq_run hmin h ip
  rw [history_append, List.filter_append, history_eq_run hmin h.of_append, callsOf_append,
    run_append] at hall
  exact List.append_cancel_left hall

theorem allowedOf_from (hmin : 0 < perMin) {before rest : List Call}
    (h : Timely (before ++ rest)) (ip : Bytes) :
    allowedOf ip (((freshLimiter perMin).afterCalls before).history rest) =
      admitted (run Call.now perMin 60 (windowOf perMin before ip) (callsOf ip rest)) := by
  rw [← history_from hmin h, admitted, List.countP_filter]
  rfl

theorem opensWindow_iff (hmin : 0 < perMin) (h : Timely (calls ++ [c])) :
    ((freshLimiter perMin).afterCalls calls).OpensWindow c ↔
      Opens 60 (windowOf perMin calls c.ip) c.now :=
  (tracks_run hmin h.of_append h.last.1).tidied.opens_iff

/-- A call among those of one address, found back among all calls. -/
theorem callsOf_split {A B : List Call} {o : Call} (h : callsOf ip calls = A ++ o :: B) :
    ∃ before between, calls = before ++ o :: between ∧ callsOf ip before = A ∧
      callsOf ip between = B ∧ o.ip = ip := by
  obtain ⟨l₁, l₂, rfl, hA, hrest⟩ := List.filter_eq_append_iff.mp h
  obtain ⟨m₁, m₂, rfl, hskip, ho, hB⟩ := List.filter_eq_cons_iff.mp hrest
  have hnone : callsOf ip m₁ = [] := List.filter_eq_nil_iff.mpr hskip
  refine ⟨l₁ ++ m₁, m₂, by simp, ?_, hB, by simpa using ho⟩
  rw [callsOf_append, hnone, List.append_nil]
  exact hA

/-- The current window of an address: the call `o` that opened it and the calls after it, of
which none of the same address opened another. -/
structure CurrentWindow (perMin : Int) (calls before : List Call) (o : Call)
    (between : List Call) : Prop where
  split : calls = before ++ o :: between
  opens : ((freshLimiter perMin).afterCalls before).OpensWindow o
  stays : ∀ us d vs, between = us ++ d :: vs → d.ip = o.ip →
    ¬ ((freshLimiter perMin).afterCalls (before ++ o :: us)).OpensWindow d

theorem Covers.currentWindow (hmin : 0 < perMin) (h : Timely calls) {v : Window}
    {A B : List Call} {o : Call} (hc : Covers Call.now perMin 60 (callsOf ip calls) v A o B) :
    ∃ before between, CurrentWindow perMin calls before o between ∧ o.ip = ip ∧
      (allowedOf ip (((freshLimiter perMin).afterCalls before).history (o :: between)) : Int) =
        v.count := by
  obtain ⟨before, between, rfl, rfl, rfl, rfl⟩ := callsOf_split hc.split
  have hto : ∀ us vs, between = us ++ vs → Timely (before ++ o :: us) := by
    rintro us vs rfl
    have hsplit : before ++ o :: (us ++ vs) = before ++ o :: us ++ vs := by simp
    rw [hsplit] at h
    exact h.of_append
  refine ⟨before, between, ⟨rfl, ?_, ?_⟩, rfl, ?_⟩
  · exact (opensWindow_iff hmin (hto [] between rfl)).mpr hc.opens
  · rintro us d vs rfl hd
    have hd' : Timely (before ++ o :: us ++ [d]) := by
      simpa using hto (us ++ [d]) vs (by simp)
    rw [opensWindow_iff hmin hd', windowOf, hd, callsOf_append]
    have hother : callsOf o.ip (o :: us) = o :: callsOf o.ip us := by simp [callsOf]
    rw [hother]
    apply hc.stays (callsOf o.ip us) d (callsOf o.ip vs)
    simp [callsOf, hd]
  · rw [allowedOf_from hmin h, ← hc.count]
    have hself : callsOf o.ip (o :: between) = o :: callsOf o.ip between := by simp [callsOf]
    rw [hself]
    rfl

/-- An address is allowed at most `k + 1` times its limit in `k` minutes, and is refused only
after exactly its limit was allowed in the window that a call less than a minute ago opened. -/
theorem rate_limited (hmin : 0 < perMin) (h : Timely calls) :
    (∀ (ip : Bytes) (T : Int) (k : Nat),
      (allowedIn ip T (T + 60 * k) ((freshLimiter perMin).history calls) : Int) ≤
        (k + 1) * perMin) ∧
    ∀ earlier c later, calls = earlier ++ c :: later →
      (((freshLimiter perMin).afterCalls earlier).allow c.ip c.now).1 = false →
      ∃ before o between, CurrentWindow perMin earlier before o between ∧ o.ip = c.ip ∧
        c.now - o.now < 60 ∧
        (allowedOf c.ip (((freshLimiter perMin).afterCalls before).history (o :: between)) : Int) =
          perMin := by
  constructor
  · intro ip T k
    have hbound := admittedIn_le (a := T) hmin (by omega : (0 : Int) < 60) (h.callsOf ip).2 k
    rw [← history_eq_run hmin h, admittedIn, List.countP_filter] at hbound
    exact hbound
  · rintro earlier c later rfl hrefused
    have hto : Timely (earlier ++ [c]) := by
      have hsplit : earlier ++ c :: later = earlier ++ [c] ++ later := by simp
      rw [hsplit] at h
      exact h.of_append
    rw [allow_eq_tick hmin hto] at hrefused
    obtain ⟨v, A, o, B, hc, hcount, hrecent⟩ := covers_of_refused hmin hrefused
    obtain ⟨before, between, hwindow, hip, hallowed⟩ :=
      Covers.currentWindow hmin hto.of_append hc
    exact ⟨before, o, between, hwindow, hip, hrecent, hallowed.trans hcount⟩

theorem twoClients_limited :
    (∀ (ip : Bytes) (T : Int) (k : Nat),
      (allowedIn ip T (T + 60 * k) ((freshLimiter 1).history twoClients) : Int) ≤ (k + 1) * 1) ∧
    ∀ earlier c later, twoClients = earlier ++ c :: later →
      (((freshLimiter 1).afterCalls earlier).allow c.ip c.now).1 = false →
      ∃ before o between, CurrentWindow 1 earlier before o between ∧ o.ip = c.ip ∧
        c.now - o.now < 60 ∧
        (allowedOf c.ip (((freshLimiter 1).afterCalls before).history (o :: between)) : Int) = 1 :=
  rate_limited (by decide) (by decide)

end Gateway
