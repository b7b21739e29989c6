import Mathlib
import Gateway.Text
import Gateway.Library.FixedWindow

/-! The rate limiter (RateLimiter.h) and the windows it keeps for each address. -/
namespace Gateway

open FixedWindow

structure Bucket where
  windowStart : Int := 0
  count : Int := 0
  deriving DecidableEq

structure RateLimiter where
  perMin : Int := 100
  buckets : Std.ExtTreeMap Bytes Bucket := ∅

/-- A call of `allow` with the reading of the clock it takes. -/
structure Call where
  ip : Bytes
  now : Int
  deriving DecidableEq

namespace RateLimiter

def purge (l : RateLimiter) (now : Int) : RateLimiter :=
  { l with buckets := l.buckets.filter fun _ b => !decide (60 ≤ now - b.windowStart) }

/-- The purge that `allow` makes before it looks for its bucket. -/
def tidied (l : RateLimiter) (now : Int) : RateLimiter :=
  if 20000 < l.buckets.size then l.purge now else l

/-- `buckets_[ip]`. -/
def bucket (l : RateLimiter) (ip : Bytes) : Bucket := (l.buckets[ip]?).getD {}

def setBucket (l : RateLimiter) (ip : Bytes) (b : Bucket) : RateLimiter :=
  { l with buckets := l.buckets.insert ip b }

def allow (l : RateLimiter) (ip : Bytes) (now : Int) : Bool × RateLimiter :=
  if l.perMin ≤ 0 then (true, l)
  else
    let l := l.tidied now
    let b := l.bucket ip
    if b.windowStart = 0 ∨ 60 ≤ now - b.windowStart then
      (true, l.setBucket ip { windowStart := now, count := 1 })
    else if l.perMin ≤ b.count then (false, l.setBucket ip b)
    else (true, l.setBucket ip { b with count := b.count + 1 })

/-- The call finds no window of its address, or one that has ended. -/
def OpensWindow (l : RateLimiter) (c : Call) : Prop :=
  ((l.tidied c.now).bucket c.ip).windowStart = 0 ∨
    60 ≤ c.now - ((l.tidied c.now).bucket c.ip).windowStart

def afterCalls (l : RateLimiter) (calls : List Call) : RateLimiter :=
  calls.foldl (fun l c => (l.allow c.ip c.now).2) l

/-- The calls with their verdicts. -/
def history (l : RateLimiter) : List Call → List (Call × Bool)
  | [] => []
  | c :: calls => (c, (l.allow c.ip c.now).1) :: history (l.allow c.ip c.now).2 calls

variable {l : RateLimiter} {ip : Bytes} {now : Int} {c : Call} {calls calls' : List Call}

theorem afterCalls_append : l.afterCalls (calls ++ calls') =
    (l.afterCalls calls).afterCalls calls' := List.foldl_append

theorem history_append : l.history (calls ++ calls') =
    l.history calls ++ (l.afterCalls calls).history calls' := by
  induction calls generalizing l with
  | nil => rfl
  | cons c calls ih =>
    simp only [List.cons_append, history, ih]
    rfl

@[simp] theorem setBucket_perMin {b : Bucket} : (l.setBucket ip b).perMin = l.perMin := rfl

@[simp] theorem tidied_perMin : (l.tidied now).perMin = l.perMin := by
  unfold tidied
  split <;> rfl

theorem allow_perMin : (l.allow ip now).2.perMin = l.perMin := by
  unfold allow
  dsimp only
  split
  · rfl
  · split
    · simp
    · split <;> simp

/-- The map after a write, one address at a time. -/
theorem setBucket_get (l : RateLimiter) (ip ip' : Bytes) (b : Bucket) :
    (l.setBucket ip b).buckets[ip']? = if ip = ip' then some b else l.buckets[ip']? := by
  simp [setBucket, Std.ExtTreeMap.getElem?_insert]

theorem purge_get (l : RateLimiter) (now : Int) (ip : Bytes) : (l.purge now).buckets[ip]? =
    (l.buckets[ip]?).filter fun b => !decide (60 ≤ now - b.windowStart) := by
  simp only [purge, Std.ExtTreeMap.getElem?_filter']

end RateLimiter

/-- The limiter against the windows that no purge ever drops: a bucket is the window of its
address, and an address without a bucket has no window that is still open at `t`. -/
structure Tracks (l : RateLimiter) (f : Bytes → Option Window) (t : Int) : Prop where
  kept : ∀ ip b, l.buckets[ip]? = some b →
    0 < b.windowStart ∧ f ip = some ⟨b.windowStart, b.count⟩
  dropped : ∀ ip, l.buckets[ip]? = none → Opens 60 (f ip) t

namespace Tracks

open RateLimiter

variable {l : RateLimiter} {f : Bytes → Option Window} {t now : Int} {ip : Bytes} {c : Call}

theorem mono (h : Tracks l f t) (hle : t ≤ now) : Tracks l f now := by
  refine ⟨h.kept, ?_⟩
  intro ip hnone v hv
  have hended := h.dropped ip hnone v hv
  omega

theorem purge (h : Tracks l f now) : Tracks (l.purge now) f now := by
  constructor
  · intro ip b hb
    rw [purge_get, Option.filter_eq_some_iff] at hb
    exact h.kept ip b hb.1
  · intro ip hnone
    rw [purge_get, Option.filter_eq_none_iff] at hnone
    cases hb : l.buckets[ip]? with
    | none => exact h.dropped ip hb
    | some b =>
      rw [(h.kept ip b hb).2]
      rintro _ ⟨⟩
      simpa using hnone b hb

theorem tidied (h : Tracks l f now) : Tracks (l.tidied now) f now := by
  unfold RateLimiter.tidied
  split
  · exact h.purge
  · exact h

/-- The test of `allow` is whether the window of the address has ended. -/
theorem opens_iff (h : Tracks l f now) :
    ((l.bucket ip).windowStart = 0 ∨ 60 ≤ now - (l.bucket ip).windowStart) ↔
      Opens 60 (f ip) now := by
  unfold bucket
  cases hb : l.buckets[ip]? with
  | none => exact iff_of_true (Or.inl rfl) (h.dropped ip hb)
  | some b =>
    obtain ⟨hpos, hf⟩ := h.kept ip b hb
    rw [hf]
    constructor
    · intro hor
      rintro _ ⟨⟩
      simp only [Option.getD_some] at hor
      simp only
      omega
    · intro hopens
      exact Or.inr (hopens _ rfl)

theorem setBucket (h : Tracks l f now) {b : Bucket} (hpos : 0 < b.windowStart) :
    Tracks (l.setBucket ip b) (Function.update f ip (some ⟨b.windowStart, b.count⟩)) now := by
  constructor
  · intro ip' b' hb
    rw [setBucket_get] at hb
    by_cases hip : ip = ip'
    · subst hip
      rw [if_pos rfl] at hb
      cases hb
      exact ⟨hpos, Function.update_self _ _ _⟩
    · rw [if_neg hip] at hb
      rw [Function.update_of_ne (Ne.symm hip)]
      exact h.kept ip' b' hb
  · intro ip' hnone
    rw [setBucket_get] at hnone
    by_cases hip : ip = ip'
    · rw [if_pos hip] at hnone
      cases hnone
    · rw [if_neg hip] at hnone
      rw [Function.update_of_ne (Ne.symm hip)]
      exact h.dropped ip' hnone

/-- One call decides and moves as the window of its address does. -/
theorem allow (h : Tracks l f t) (ip : Bytes) (hmin : 0 < l.perMin) (hle : t ≤ now)
    (hnow : 0 < now) :
    (l.allow ip now).1 = (tick l.perMin 60 (f ip) now).1 ∧
      Tracks (l.allow ip now).2 (Function.update f ip (some (tick l.perMin 60 (f ip) now).2))
        now := by
  have htidy := (h.mono hle).tidied
  rw [RateLimiter.allow, if_neg (by omega)]
  dsimp only
  by_cases hopens : Opens 60 (f ip) now
  · rw [if_pos (htidy.opens_iff.mpr hopens), tick_of_opens hopens]
    exact ⟨rfl, htidy.setBucket hnow⟩
  · rw [if_neg (mt htidy.opens_iff.mp hopens), tidied_perMin]
    obtain ⟨v, hv, -, htick⟩ := tick_of_not_opens l.perMin hopens
    cases hb : (l.tidied now).buckets[ip]? with
    | none => exact (hopens (htidy.dropped ip hb)).elim
    | some b =>
      obtain ⟨hpos, hf⟩ := htidy.kept ip b hb
      have hbucket : (l.tidied now).bucket ip = b := by simp [bucket, hb]
      obtain rfl := Option.some.inj (hf.symm.trans hv)
      rw [htick, hbucket]
      by_cases hfull : l.perMin ≤ b.count
      · rw [if_pos hfull, if_neg (by simp only; omega)]
        exact ⟨rfl, htidy.setBucket hpos⟩
      · rw [if_neg hfull, if_pos (by simp only; omega)]
        exact ⟨rfl, htidy.setBucket hpos⟩

end Tracks

end Gateway
