import Mathlib
import Gateway.HandleClient

/-! A client as the sequence of pieces in which `recv` hands out its bytes. -/
namespace Gateway

open Program Search

variable {s : Socket} {head c : Bytes} {cs : List Bytes}

/-- Pieces that one `recv` into the 4096-byte buffer can return. -/
def Segmented (cs : List Bytes) : Prop := ∀ c ∈ cs, 0 < c.length ∧ c.length ≤ 4096

instance : Decidable (Segmented cs) := inferInstanceAs (Decidable (∀ c ∈ cs, _))

/-- Answers the receives on the client socket from the pieces, and blocks on all else. -/
def clientStream (s : Socket) : (o : Op) → List Bytes → Option (Res o × List Bytes)
  | .recv s' len, c :: cs =>
    if h : s' = s ∧ 0 < c.length ∧ c.length ≤ len then some (.data c h.2.1 h.2.2, cs) else none
  | _, _ => none

theorem Segmented.tail (h : Segmented (c :: cs)) : Segmented cs := by
  intro d hd
  exact h d (List.mem_cons_of_mem c hd)

theorem clientStream_recv (h : Segmented (c :: cs)) :
    ∃ hpos hle, clientStream s (.recv s 4096) (c :: cs) = some (.data c hpos hle, cs) := by
  obtain ⟨hpos, hle⟩ := h c List.mem_cons_self
  exact ⟨hpos, hle, by simp [clientStream, hpos, hle]⟩

/-- One turn of the head loop. -/
theorem readHead_against (h : Segmented (c :: cs)) (head : Bytes)
    (hlt : head.length < kMaxHeaderBytes) :
    (readHead s head).against (clientStream s) (c :: cs) =
      if (find? crlfcrlf (head ++ c)).isSome then (.ret (.done (head ++ c)), cs)
      else (readHead s (head ++ c)).against (clientStream s) cs := by
  obtain ⟨hpos, hle, hrecv⟩ := clientStream_recv (s := s) h
  rw [readHead, if_pos hlt, Prog.against_call_some hrecv]
  simp only
  split <;> rfl

/-- One turn of the body loop. -/
theorem readBody_against (h : Segmented (c :: cs)) (maxBodyBytes : Int) {cl : Nat} {body : Bytes}
    (hlt : body.length < cl) :
    (readBody s maxBodyBytes cl body).against (clientStream s) (c :: cs) =
      if maxBodyBytes < (body ++ c).length then (.ret .tooLarge, cs)
      else (readBody s maxBodyBytes cl (body ++ c)).against (clientStream s) cs := by
  obtain ⟨hpos, hle, hrecv⟩ := clientStream_recv (s := s) h
  rw [readBody, if_pos hlt, Prog.against_call_some hrecv]
  simp only
  split <;> rfl

/-- How the head loop ends on a segmented stream, or that it waits for more. -/
theorem readHead_cases (hcs : Segmented cs) (hnone : find? crlfcrlf head = none) :
    (∃ pre c post i, cs = pre ++ c :: post ∧ (head ++ pre.flatten).length < kMaxHeaderBytes ∧
      find? crlfcrlf (head ++ pre.flatten ++ c) = some i ∧
      (readHead s head).against (clientStream s) cs =
        (.ret (.done (head ++ pre.flatten ++ c)), post)) ∨
    (∃ pre post, cs = pre ++ post ∧ kMaxHeaderBytes ≤ (head ++ pre.flatten).length ∧
      find? crlfcrlf (head ++ pre.flatten) = none ∧
      (readHead s head).against (clientStream s) cs = (.ret .tooLarge, post)) ∨
    ((head ++ cs.flatten).length < kMaxHeaderBytes ∧
      find? crlfcrlf (head ++ cs.flatten) = none) := by
  induction cs generalizing head with
  | nil =>
    by_cases hlt : head.length < kMaxHeaderBytes
    · exact Or.inr (Or.inr (by simpa using ⟨hlt, hnone⟩))
    · refine Or.inr (Or.inl ⟨[], [], rfl, by simpa using hlt, by simpa using hnone, ?_⟩)
      rw [readHead, if_neg hlt]
      rfl
  | cons c cs ih =>
    by_cases hlt : head.length < kMaxHeaderBytes
    · rw [readHead_against hcs head hlt]
      cases hf : find? crlfcrlf (head ++ c) with
      | some i => exact Or.inl ⟨[], c, cs, i, rfl, by simpa using hlt, by simpa using hf, by simp⟩
      | none =>
        rcases ih hcs.tail hf with ⟨pre, d, post, i, rfl, hshort, hfound, hrun⟩ |
          ⟨pre, post, rfl, hlong, hnot, hrun⟩ | ⟨hshort, hnot⟩
        · exact Or.inl ⟨c :: pre, d, post, i, rfl, by simpa using hshort, by simpa using hfound,
            by simpa using hrun⟩
        · exact Or.inr (Or.inl ⟨c :: pre, post, rfl, by simpa using hlong, by simpa using hnot,
            by simpa using hrun⟩)
        · rw [List.append_assoc, ← List.flatten_cons] at hshort hnot
          exact Or.inr (Or.inr ⟨hshort, hnot⟩)
    · refine Or.inr (Or.inl ⟨[], c :: cs, rfl, by simpa using hlt, by simpa using hnone, ?_⟩)
      rw [readHead, if_neg hlt]
      rfl

/-- A head that ends within the limit is read completely, however it is cut into pieces. -/
theorem readHead_done {i : Nat} (hcs : Segmented cs)
    (hnone : find? crlfcrlf head = none)
    (hend : find? crlfcrlf (head ++ cs.flatten) = some i) (hi : i + 4 ≤ kMaxHeaderBytes) :
    ∃ buf rest, (readHead s head).against (clientStream s) cs = (.ret (.done buf), rest) ∧
      buf ++ rest.flatten = head ++ cs.flatten ∧ find? crlfcrlf buf = some i := by
  rcases readHead_cases (s := s) hcs hnone with ⟨pre, c, post, j, rfl, -, hfound, hrun⟩ |
    ⟨pre, post, rfl, hlong, hnot, -⟩ | ⟨-, hnot⟩
  · have hbytes :
        head ++ pre.flatten ++ c ++ post.flatten = head ++ (pre ++ c :: post).flatten := by
      simp
    have hwhole := find?_append_of_some (b := post.flatten) hfound
    rw [hbytes, hend] at hwhole
    exact ⟨head ++ pre.flatten ++ c, post, hrun, hbytes, hfound.trans hwhole.symm⟩
  · rw [List.flatten_append, ← List.append_assoc] at hend
    have hin : i + crlfcrlf.length ≤ (head ++ pre.flatten).length := by
      simp only [crlfcrlf, List.length_cons, List.length_nil]
      omega
    rw [find?_of_append hend hin] at hnot
    cases hnot
  · rw [hend] at hnot
    cases hnot

end Gateway
