import Logging.Proofs.Rotation.Series

/-!
# Payloads cut into files of a certain size

* `Chunks.crowded_iff`: the rule by which a payload goes to a new file.
* `Chunks.Greedy`: what can be said of the files then.
* `Chunks.appends_greedy`: **following the rule, no file but the first holds more than it should,
  unless a single payload is too large, and no payload is cut.**
-/

namespace Logging.Sink.Chunks

variable {m : ℕ} {init b : ByteArray} {bs : List ByteArray} {c : Chunks}

/-- **A payload goes to a new file** if the current one is not empty and would become too large. -/
theorem crowded_iff {n : ℕ} :
    c.crowded (some m) n = true ↔ 0 < c.current.size ∧ m < c.current.size + n := by
  simp [crowded, Nat.pos_iff_ne_zero]

/-- **What can be said of files that were filled one after the other** with payloads, the first of
which held something before. -/
structure Greedy (m : ℕ) (init : ByteArray) (bs : List ByteArray) (c : Chunks) : Prop where
  /-- Every file after the first holds no more than it should, or is a single payload. -/
  small : ∀ x ∈ c.all.tail, x.size ≤ m ∨ (x ∈ bs ∧ m < x.size)
  /-- No payload is cut: each file holds some of them in one piece, and the first one also what it
  held before. -/
  whole : ∃ (first : List ByteArray) (rest : List (List ByteArray)),
    first ++ rest.flatten = bs ∧ c.all = (init ++ joined first) :: rest.map joined
  /-- No file that is empty is left. -/
  filled : ∀ x ∈ c.full, 0 < x.size

theorem tail_all (c : Chunks) :
    c.all.tail = if c.full = [] then [] else c.full.tail ++ [c.current] := by
  unfold all
  cases c.full with
  | nil => rfl
  | cons x full => rfl

/-- A payload that begins a file, or goes to an empty one, fits or is too large by itself. -/
theorem alone_small (hb : b ∈ bs) : b.size ≤ m ∨ (b ∈ bs ∧ m < b.size) := by
  rcases Nat.lt_or_ge m b.size with hlt | hle
  · exact .inr ⟨hb, hlt⟩
  · exact .inl hle

namespace Greedy

theorem small_append (h : Greedy m init bs c) (b : ByteArray) :
    ∀ x ∈ (c.append (some m) b).all.tail, x.size ≤ m ∨ (x ∈ bs ++ [b] ∧ m < x.size) := by
  have hmem : b ∈ bs ++ [b] := by simp
  have hold : ∀ x ∈ c.all.tail, x.size ≤ m ∨ (x ∈ bs ++ [b] ∧ m < x.size) := fun x hx =>
    (h.small x hx).imp id fun hx => ⟨List.mem_append_left _ hx.1, hx.2⟩
  intro x hx
  unfold Chunks.append at hx
  split at hx
  · -- the payload is all that the new file holds
    rw [tail_all, if_neg (by simp)] at hx
    rcases List.mem_append.1 hx with hx | hx
    · exact hold x hx
    · rw [List.mem_singleton.1 hx]
      exact alone_small hmem
  · rename_i hroom
    rw [crowded_iff] at hroom
    rw [tail_all] at hx
    split at hx
    · simp at hx
    rename_i hfull
    rcases List.mem_append.1 hx with hx | hx
    · refine hold x ?_
      rw [tail_all, if_neg hfull]
      exact List.mem_append_left _ hx
    · -- either the current file was empty or there was room in it
      rw [List.mem_singleton.1 hx]
      by_cases hempty : c.current.size = 0
      · rw [ByteArray.size_eq_zero_iff.1 hempty, ByteArray.empty_append]
        exact alone_small hmem
      · left
        rw [ByteArray.size_append]
        omega

theorem whole_append (h : Greedy m init bs c) (b : ByteArray) :
    ∃ (first : List ByteArray) (rest : List (List ByteArray)), first ++ rest.flatten = bs ++ [b] ∧
      (c.append (some m) b).all = (init ++ joined first) :: rest.map joined := by
  obtain ⟨first, rest, hbs, hall⟩ := h.whole
  rw [← hbs]
  unfold Chunks.append
  split
  · -- the payload begins a new file
    refine ⟨first, rest ++ [[b]], by simp, ?_⟩
    have hsplit : (⟨c.full ++ [c.current], b⟩ : Chunks).all = c.all ++ [b] := rfl
    rw [hsplit, hall]
    simp
  · rcases List.eq_nil_or_concat rest with rfl | ⟨r, l, rfl⟩
    · -- the current file is the first one
      have hc : c.full = [] ∧ c.current = init ++ joined first := by
        cases hf : c.full with
        | nil => simpa [all, hf] using hall
        | cons x xs => simp [all, hf] at hall
      exact ⟨first ++ [b], [], by simp, by simp [all, hc.1, hc.2, ByteArray.append_assoc]⟩
    · -- it is a later one, and so far holds the last piece
      rw [List.concat_eq_append] at hall ⊢
      have hsnoc : c.full ++ [c.current] =
          ((init ++ joined first) :: r.map joined) ++ [joined l] := by
        simpa [all] using hall
      obtain ⟨hfull, hcurrent⟩ := List.append_inj' hsnoc rfl
      rw [List.cons.injEq] at hcurrent
      exact ⟨first, r ++ [l ++ [b]], by simp, by simp [all, hfull, hcurrent.1]⟩

theorem filled_append (h : Greedy m init bs c) (b : ByteArray) :
    ∀ x ∈ (c.append (some m) b).full, 0 < x.size := by
  intro x hx
  unfold Chunks.append at hx
  split at hx
  · rename_i hcrowded
    rw [crowded_iff] at hcrowded
    rcases List.mem_append.1 hx with hx | hx
    · exact h.filled x hx
    · rw [List.mem_singleton.1 hx]
      exact hcrowded.1
  · exact h.filled x hx

/-- **One payload more.** -/
theorem append (h : Greedy m init bs c) (b : ByteArray) :
    Greedy m init (bs ++ [b]) (c.append (some m) b) :=
  ⟨h.small_append b, h.whole_append b, h.filled_append b⟩

end Greedy

/-- **Following the rule from the first file on**, every file is as it should be. -/
theorem appends_greedy (m : ℕ) (init : ByteArray) (bs : List ByteArray) :
    Greedy m init bs ((⟨[], init⟩ : Chunks).appends (some m) bs) := by
  have hrun : ∀ (bs done : List ByteArray) (c : Chunks), Greedy m init done c →
      Greedy m init (done ++ bs) (c.appends (some m) bs) := by
    intro bs
    induction bs with
    | nil =>
      intro done c h
      rw [List.append_nil]
      exact h
    | cons b bs ih =>
      intro done c h
      have hstep := ih _ _ (h.append b)
      rw [List.append_assoc] at hstep
      exact hstep
  exact hrun bs [] _ ⟨by simp [all], ⟨[], [], rfl, by simp [all]⟩, by simp⟩

end Logging.Sink.Chunks
