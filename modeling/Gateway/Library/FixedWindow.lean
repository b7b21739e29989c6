import Mathlib

/-! Counters that admit a bounded number of events in each window of a fixed width. -/
namespace FixedWindow

/-- An open window: when it started and how many events it has admitted. -/
structure Window where
  start : Int
  count : Int
  deriving DecidableEq

/-- The event at `now` finds no window, or one that has ended. -/
def Opens (width : Int) (w : Option Window) (now : Int) : Prop :=
  ∀ v, w = some v → width ≤ now - v.start

/-- Whether the event at `now` is admitted, and the window after it. -/
def tick (limit width : Int) (w : Option Window) (now : Int) : Bool × Window :=
  match w with
  | none => (true, ⟨now, 1⟩)
  | some v =>
    if width ≤ now - v.start then (true, ⟨now, 1⟩)
    else if v.count < limit then (true, ⟨v.start, v.count + 1⟩)
    else (false, v)

variable {α : Type} (time : α → Int) (limit width : Int)

/-- The window after a list of events. -/
def after (w : Option Window) (es : List α) : Option Window :=
  es.foldl (fun w e => some (tick limit width w (time e)).2) w

/-- The events with their verdicts. -/
def run (w : Option Window) : List α → List (α × Bool)
  | [] => []
  | e :: es =>
    (e, (tick limit width w (time e)).1) ::
      run (some (tick limit width w (time e)).2) es

/-- The number of events admitted. -/
def admitted (r : List (α × Bool)) : Nat := r.countP Prod.snd

/-- The number of events admitted at times in `[a, b)`. -/
def admittedIn (a b : Int) (r : List (α × Bool)) : Nat :=
  r.countP fun p => p.2 && decide (a ≤ time p.1 ∧ time p.1 < b)

/-- How many windows can start in `[a, e)`. -/
def slots (width e a : Int) : Nat := ((e - a + width - 1) / width).toNat

section

variable {time limit width} {w : Option Window} {now : Int} {e : α} {es fs : List α}

theorem tick_of_opens (h : Opens width w now) : tick limit width w now = (true, ⟨now, 1⟩) := by
  cases w with
  | none => rfl
  | some v => simp only [tick, if_pos (h v rfl)]

theorem tick_of_not_opens (limit : Int) (h : ¬ Opens width w now) :
    ∃ v, w = some v ∧ now - v.start < width ∧
      tick limit width w now =
        if v.count < limit then (true, ⟨v.start, v.count + 1⟩) else (false, v) := by
  cases w with
  | none =>
    refine absurd ?_ h
    intro v hv
    cases hv
  | some v =>
    have hlt : ¬ width ≤ now - v.start := by
      intro hle
      apply h
      rintro _ ⟨⟩
      exact hle
    exact ⟨v, rfl, by omega, by simp only [tick, if_neg hlt]⟩

@[simp] theorem after_nil : after time limit width w [] = w := rfl

@[simp] theorem after_cons : after time limit width w (e :: es) =
    after time limit width (some (tick limit width w (time e)).2) es := rfl

theorem after_append : after time limit width w (es ++ fs) =
    after time limit width (after time limit width w es) fs := List.foldl_append

@[simp] theorem run_nil : run time limit width w [] = [] := rfl

theorem run_append : run time limit width w (es ++ fs) =
    run time limit width w es ++ run time limit width (after time limit width w es) fs := by
  induction es generalizing w with
  | nil => rfl
  | cons e es ih => simp only [List.cons_append, run, ih, after_cons]

theorem slots_anti {a b e : Int} (hwidth : 0 < width) (h : a ≤ b) :
    slots width e b ≤ slots width e a := by
  have hle : (e - b + width - 1) / width ≤ (e - a + width - 1) / width :=
    Int.ediv_le_ediv hwidth (by omega)
  unfold slots
  omega

/-- A window that starts at `a` leaves room for the starts one width later. -/
theorem slots_succ {a e : Int} (hwidth : 0 < width) (h : a < e) :
    slots width e a = slots width e (a + width) + 1 := by
  have hsum : e - a + width - 1 = (e - (a + width) + width - 1) + width := by omega
  have hdiv : (e - a + width - 1) / width = (e - (a + width) + width - 1) / width + 1 := by
    rw [hsum, Int.add_ediv_of_dvd_right (dvd_refl width), Int.ediv_self (by omega)]
  have hnonneg : 0 ≤ (e - (a + width) + width - 1) / width :=
    Int.ediv_nonneg (by omega) (by omega)
  unfold slots
  omega

/-- What can still be admitted in `[a, b)`: the rest of the open window if it meets the
interval, and a full window for each start that is left. -/
def room (limit width a b : Int) : Option Window → Int
  | none => limit * slots width b (a - width + 1)
  | some v => (if a < v.start + width ∧ v.start < b then limit - v.count else 0) +
      limit * slots width b (max (v.start + width) (a - width + 1))

/-- The window has admitted no more than its limit and started before the events. -/
def Sound (time : α → Int) (limit : Int) (w : Option Window) (es : List α) : Prop :=
  ∀ v, w = some v → v.count ≤ limit ∧ ∀ e ∈ es, v.start ≤ time e

variable {a b : Int}

theorem room_none : room limit width a b none = limit * slots width b (a - width + 1) := rfl

theorem room_some {start count : Int} : room limit width a b (some ⟨start, count⟩) =
    (if a < start + width ∧ start < b then limit - count else 0) +
      limit * slots width b (max (start + width) (a - width + 1)) := rfl

theorem admittedIn_cons {v : Bool} {r : List (α × Bool)} :
    admittedIn time a b ((e, v) :: r) = admittedIn time a b r +
      if v = true ∧ a ≤ time e ∧ time e < b then 1 else 0 := by
  simp [admittedIn, List.countP_cons]

/-- A new window takes its limit out of the room. -/
theorem room_of_opens (hlimit : 0 < limit) (hwidth : 0 < width)
    (hcount : ∀ v, w = some v → v.count ≤ limit) (h : Opens width w now) :
    (if a ≤ now ∧ now < b then 1 else 0) + room limit width a b (some ⟨now, 1⟩) ≤
      room limit width a b w := by
  obtain ⟨c, hc, hbase⟩ : ∃ c, c ≤ max now (a - width + 1) ∧
      limit * slots width b c ≤ room limit width a b w := by
    cases w with
    | none => exact ⟨a - width + 1, by omega, le_refl _⟩
    | some v =>
      have hended := h v rfl
      have hroom := hcount v rfl
      refine ⟨max (v.start + width) (a - width + 1), by omega, ?_⟩
      rw [room_some]
      split <;> omega
  have hmono : ∀ {x y : Int}, x ≤ y → limit * slots width b y ≤ limit * slots width b x := by
    intro x y hxy
    have hle := slots_anti (e := b) hwidth hxy
    exact mul_le_mul_of_nonneg_left (by exact_mod_cast hle) (by omega)
  rw [room_some]
  by_cases hmeets : a < now + width ∧ now < b
  · have hnow : limit * slots width b now ≤ limit * slots width b c := hmono (by omega)
    have hnext : limit * slots width b (max (now + width) (a - width + 1)) ≤
        limit * slots width b (now + width) := hmono (by omega)
    have hsucc : limit * (slots width b now : Int) =
        limit * slots width b (now + width) + limit := by
      rw [slots_succ hwidth hmeets.2]
      push_cast
      ring
    rw [if_pos hmeets]
    split <;> omega
  · have hnext : limit * slots width b (max (now + width) (a - width + 1)) ≤
        limit * slots width b c := hmono (by omega)
    rw [if_neg hmeets, if_neg (by omega)]
    omega

theorem admittedIn_le_room (hlimit : 0 < limit) (hwidth : 0 < width)
    (hes : es.Pairwise fun x y => time x ≤ time y) (hw : Sound time limit w es) :
    (admittedIn time a b (run time limit width w es) : Int) ≤ room limit width a b w := by
  induction es generalizing w with
  | nil =>
    have hnonneg : ∀ c, 0 ≤ limit * (slots width b c : Int) := by
      intro c
      exact mul_nonneg (by omega) (by omega)
    cases w with
    | none => exact hnonneg _
    | some v =>
      have hcount := (hw v rfl).1
      have hslots := hnonneg (max (v.start + width) (a - width + 1))
      rw [room_some, run_nil, admittedIn, List.countP_nil]
      split <;> omega
  | cons e es ih =>
    obtain ⟨hfirst, hes⟩ := List.pairwise_cons.mp hes
    rw [run, admittedIn_cons]
    by_cases hopen : Opens width w (time e)
    · have hroom := room_of_opens (a := a) (b := b) hlimit hwidth (fun v hv => (hw v hv).1) hopen
      have hle := ih hes (w := some ⟨time e, 1⟩)
        (by rintro _ ⟨⟩; exact ⟨by simp only; omega, hfirst⟩)
      rw [tick_of_opens hopen]
      simp only [true_and]
      push_cast
      omega
    · obtain ⟨v, rfl, hin, htick⟩ := tick_of_not_opens limit hopen
      obtain ⟨hcount, hstart⟩ := hw v rfl
      have hnow := hstart e List.mem_cons_self
      have hrest : ∀ e ∈ es, v.start ≤ time e := fun e he => hstart e (List.mem_cons_of_mem _ he)
      rw [htick]
      by_cases hlt : v.count < limit
      · have hle := ih hes (w := some ⟨v.start, v.count + 1⟩)
          (by rintro _ ⟨⟩; exact ⟨by simp only; omega, hrest⟩)
        rw [room_some] at hle ⊢
        simp only [if_pos hlt, true_and]
        push_cast
        split at hle <;> split <;> omega
      · have hle := ih hes (w := some v) (by rintro _ ⟨⟩; exact ⟨hcount, hrest⟩)
        simp only [if_neg hlt, Bool.false_eq_true, false_and, if_false, add_zero]
        exact hle

/-- In `k` widths at most `k + 1` windows' worth of events are admitted. -/
theorem admittedIn_le (hlimit : 0 < limit) (hwidth : 0 < width)
    (hes : es.Pairwise fun x y => time x ≤ time y) (k : Nat) :
    (admittedIn time a (a + width * k) (run time limit width none es) : Int) ≤ (k + 1) * limit := by
  have hroom := admittedIn_le_room (a := a) (b := a + width * k) hlimit hwidth hes
    (w := none) (by rintro _ ⟨⟩)
  have hslots : slots width (a + width * k) (a - width + 1) ≤ k + 1 := by
    have hlt : (a + width * k - (a - width + 1) + width - 1) / width < k + 2 := by
      apply Int.ediv_lt_of_lt_mul hwidth
      have hexp : (k + 2 : Int) * width = width * k + width + width := by ring
      omega
    unfold slots
    omega
  have hmul : limit * (slots width (a + width * k) (a - width + 1) : Int) ≤ limit * (k + 1) :=
    mul_le_mul_of_nonneg_left (by exact_mod_cast hslots) (by omega)
  have hcomm : (k + 1 : Int) * limit = limit * (k + 1) := by ring
  rw [room_none] at hroom
  omega

/-- The part of a history that the open window covers: the event `o` that opened it and the
events after it, none of which opened another. -/
structure Covers (time : α → Int) (limit width : Int) (es : List α) (v : Window) (pre : List α)
    (o : α) (post : List α) : Prop where
  split : es = pre ++ o :: post
  opens : Opens width (after time limit width none pre) (time o)
  start : v.start = time o
  stays : ∀ us e fs, post = us ++ e :: fs →
    ¬ Opens width (after time limit width none (pre ++ o :: us)) (time e)
  count : (admitted (run time limit width (after time limit width none pre) (o :: post)) : Int) =
    v.count

theorem covers_opened (h : Opens width (after time limit width none es) (time e)) :
    Covers time limit width (es ++ [e]) ⟨time e, 1⟩ es e [] := by
  refine ⟨rfl, h, rfl, ?_, ?_⟩
  · intro us e' fs hnil
    simp at hnil
  · simp [run, tick_of_opens h, admitted]

theorem Covers.snoc {v : Window} {pre post : List α} {o : α}
    (hc : Covers time limit width es v pre o post)
    (hstate : after time limit width none es = some v)
    (h : ¬ Opens width (some v) (time e)) :
    Covers time limit width (es ++ [e]) (tick limit width (some v) (time e)).2 pre o
      (post ++ [e]) := by
  obtain ⟨_, ⟨⟩, -, htick⟩ := tick_of_not_opens limit h
  have hstate' : after time limit width (after time limit width none pre) (o :: post) = some v := by
    rw [← after_append, ← hc.split, hstate]
  refine ⟨by rw [hc.split]; simp, hc.opens, ?_, ?_, ?_⟩
  · rw [htick, ← hc.start]
    split <;> rfl
  · intro us e' fs heq
    rcases List.eq_nil_or_concat fs with rfl | ⟨fs, f, rfl⟩
    · obtain ⟨rfl, hone⟩ := List.append_inj' heq rfl
      obtain rfl := List.singleton_inj.mp hone
      rw [after_append, hstate']
      exact h
    · rw [List.concat_eq_append, ← List.cons_append, ← List.append_assoc] at heq
      exact hc.stays us e' fs (List.append_inj' heq rfl).1
  · rw [← List.cons_append, run_append, hstate', admitted, List.countP_append, Nat.cast_add]
    have hcount := hc.count
    rw [admitted] at hcount
    rw [hcount, run, htick]
    by_cases hlt : v.count < limit
    · simp [hlt]
    · simp [hlt]

/-- The open window has admitted its count of the events it covers, and no more than the limit. -/
theorem exists_covers {v : Window} (hlimit : 0 < limit)
    (h : after time limit width none es = some v) :
    v.count ≤ limit ∧ ∃ pre o post, Covers time limit width es v pre o post := by
  induction es using List.reverseRecOn generalizing v with
  | nil => cases h
  | append_singleton es e ih =>
    rw [after_append, after_cons, after_nil] at h
    obtain rfl := Option.some.inj h
    by_cases hopen : Opens width (after time limit width none es) (time e)
    · rw [tick_of_opens hopen]
      exact ⟨by simp only; omega, es, e, [], covers_opened hopen⟩
    · obtain ⟨u, hu, -, htick⟩ := tick_of_not_opens limit hopen
      obtain ⟨hle, pre, o, post, hc⟩ := ih hu
      rw [hu] at hopen ⊢
      refine ⟨?_, pre, o, post ++ [e], hc.snoc hu hopen⟩
      rw [hu] at htick
      rw [htick]
      split
      · simp only
        omega
      · exact hle

/-- An event is refused only after the open window has admitted exactly its limit. -/
theorem covers_of_refused {now : Int} (hlimit : 0 < limit)
    (h : (tick limit width (after time limit width none es) now).1 = false) :
    ∃ v pre o post, Covers time limit width es v pre o post ∧ v.count = limit ∧
      now - time o < width := by
  by_cases hopen : Opens width (after time limit width none es) now
  · rw [tick_of_opens hopen] at h
    cases h
  · obtain ⟨v, hv, hnow, htick⟩ := tick_of_not_opens limit hopen
    obtain ⟨hle, pre, o, post, hc⟩ := exists_covers hlimit hv
    have hstart := hc.start
    rw [htick] at h
    by_cases hlt : v.count < limit
    · rw [if_pos hlt] at h
      cases h
    · exact ⟨v, pre, o, post, hc, by omega, by omega⟩

end

end FixedWindow
