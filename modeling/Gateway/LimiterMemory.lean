import Mathlib
import Gateway.RateLimits

/-! How many buckets the rate limiter holds. -/
namespace Gateway

open FixedWindow RateLimiter

variable {perMin now : Int} {ip : Bytes} {b : Bucket} {calls : List Call} {l : RateLimiter}

/-- The addresses with a call less than a minute before `now`. -/
def recentIps (calls : List Call) (now : Int) : Finset Bytes :=
  ((calls.filter fun c => now - 60 < c.now ∧ c.now ≤ now).map Call.ip).toFinset

theorem mem_recentIps : ip ∈ recentIps calls now ↔
    ∃ c ∈ calls, c.ip = ip ∧ now - 60 < c.now ∧ c.now ≤ now := by
  simp only [recentIps, List.mem_toFinset, List.mem_map, List.mem_filter, decide_eq_true_eq]
  constructor
  · rintro ⟨c, ⟨hc, hnow⟩, hip⟩
    exact ⟨c, hc, hip, hnow⟩
  · rintro ⟨c, hc, hip, hnow⟩
    exact ⟨c, ⟨hc, hnow⟩, hip⟩

theorem size_le_card {m : Std.ExtTreeMap Bytes Bucket} {s : Finset Bytes}
    (h : ∀ (ip : Bytes) (b : Bucket), m[ip]? = some b → ip ∈ s) : m.size ≤ s.card := by
  rw [← Std.ExtTreeMap.length_keys, ← List.toFinset_card_of_nodup Std.ExtTreeMap.nodup_keys]
  apply Finset.card_le_card
  intro ip hip
  have hmem : ip ∈ m := Std.ExtTreeMap.mem_keys.mp (List.mem_toFinset.mp hip)
  exact h ip m[ip] (Std.ExtTreeMap.getElem?_eq_some_getElem hmem)

/-- A call writes one bucket, that of its own address. -/
theorem allow_setBucket (hmin : 0 < l.perMin) (ip : Bytes) (now : Int) :
    ∃ b, (l.allow ip now).2 = (l.tidied now).setBucket ip b := by
  rw [RateLimiter.allow, if_neg (by omega)]
  dsimp only
  split
  · exact ⟨_, rfl⟩
  · split
    · exact ⟨_, rfl⟩
    · exact ⟨_, rfl⟩

/-- The window of a bucket was opened by a call of its address. -/
theorem windowStart_of_call (hmin : 0 < perMin) (h : Timely calls)
    (hlast : ∀ c ∈ calls, c.now ≤ now)
    (hb : ((freshLimiter perMin).afterCalls calls).buckets[ip]? = some b) :
    ∃ c ∈ calls, c.ip = ip ∧ c.now = b.windowStart := by
  obtain ⟨-, hwindow⟩ := (tracks_run hmin h hlast).kept ip b hb
  obtain ⟨-, pre, o, post, hc⟩ := exists_covers hmin hwindow
  have ho : o ∈ callsOf ip calls := by
    rw [hc.split]
    simp
  obtain ⟨hmem, hip⟩ := List.mem_filter.mp ho
  exact ⟨o, hmem, of_decide_eq_true hip, hc.start.symm⟩

/-- After a purge every address with a bucket has called within the last minute. -/
theorem recent_of_purge (hmin : 0 < perMin) (h : Timely calls)
    (hlast : ∀ c ∈ calls, c.now ≤ now)
    (hb : (((freshLimiter perMin).afterCalls calls).purge now).buckets[ip]? = some b) :
    ip ∈ recentIps calls now := by
  rw [purge_get, Option.filter_eq_some_iff] at hb
  obtain ⟨hb, hfresh⟩ := hb
  obtain ⟨c, hc, hip, hstart⟩ := windowStart_of_call hmin h hlast hb
  have hage : ¬ 60 ≤ now - b.windowStart := by simpa using hfresh
  have hle := hlast c hc
  exact mem_recentIps.mpr ⟨c, hc, hip, by omega, hle⟩

/-- After each call the buckets are within the threshold of the purge, or within the number of
addresses of the last minute. -/
theorem buckets_bounded (hmin : 0 < perMin) (h : Timely calls) :
    ∀ earlier c later, calls = earlier ++ c :: later →
      ((freshLimiter perMin).afterCalls (earlier ++ [c])).buckets.size ≤
        max 20001 (recentIps (earlier ++ [c]) c.now).card := by
  rintro earlier c later rfl
  have hto : Timely (earlier ++ [c]) := by
    have hsplit : earlier ++ c :: later = earlier ++ [c] ++ later := by simp
    rw [hsplit] at h
    exact h.of_append
  obtain ⟨hlast, -⟩ := hto.last
  have hlimit := afterCalls_perMin perMin earlier
  have hpurge : ∀ (ip : Bytes) (b : Bucket),
      (((freshLimiter perMin).afterCalls earlier).purge c.now).buckets[ip]? = some b →
        ip ∈ recentIps earlier c.now :=
    fun ip b => recent_of_purge hmin hto.of_append hlast
  rw [afterCalls_append]
  generalize (freshLimiter perMin).afterCalls earlier = l at hlimit hpurge ⊢
  obtain ⟨b, hb⟩ := allow_setBucket (hlimit ▸ hmin) c.ip c.now
  have hcall : (l.afterCalls [c]) = (l.tidied c.now).setBucket c.ip b := hb
  rw [hcall]
  by_cases hfull : 20000 < l.buckets.size
  · apply le_max_of_le_right
    apply size_le_card
    intro ip b' hget
    rw [setBucket_get, tidied, if_pos hfull] at hget
    by_cases hip : c.ip = ip
    · exact mem_recentIps.mpr ⟨c, by simp, hip, by omega, le_rfl⟩
    · rw [if_neg hip] at hget
      obtain ⟨d, hd, hdip, hnow⟩ := mem_recentIps.mp (hpurge ip b' hget)
      exact mem_recentIps.mpr ⟨d, List.mem_append_left _ hd, hdip, hnow⟩
  · apply le_max_of_le_left
    rw [tidied, if_neg hfull]
    have hinsert : (l.setBucket c.ip b).buckets.size ≤ l.buckets.size + 1 :=
      Std.ExtTreeMap.size_insert_le
    omega

theorem twoClients_bounded : ((freshLimiter 1).afterCalls twoClients).buckets.size ≤
    max 20001 (recentIps twoClients 64).card :=
  @buckets_bounded 1 twoClients (by decide) (by decide) (twoClients.take 2)
    ⟨ascii "10.0.0.1", 64⟩ [] rfl

end Gateway
