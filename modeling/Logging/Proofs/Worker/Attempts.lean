import Logging.Proofs.Worker.History

/-!
# The tries of one item

What handling an item does, said once for everything that may be observed of it.

* `lastFailure?`: what the tries of an item came to.
* `Counters.tried`: the counters after the tries of one item.
* `attempts_spec`: **an item is tried until it succeeds or no further try is allowed.** The fault is
  that of the last try, and all tries but the last are counted as repeated.
* `Work.outcome`, `attempts_outcomes`: the outcomes that its tries would have if they never ended,
  and the first of them that are come to.
* `attempts_recorded`, `handle_recorded`: its tries come to the history.
* `Collapses.count`: how often an item is tried.
-/

namespace Logging

/-- The fault of a failure of a worker's item: one that breaks off is blamed on the worker. -/
def Failure.blame (name : String) : Failure → Fault
  | .fault f => f
  | .panic p => .workerPanicked name p.text

namespace Worker

variable {α σ : Type} {w : Work α σ} {x : α} {name : String} {s t : σ} {e : Failure}

theorem attempt_eq (w : Work α σ) (name : String) (x : α) (s : σ) :
    attempt w name x s = ((w.process x s).1.mapError (·.blame name), (w.process x s).2) := by
  unfold attempt
  rcases w.process x s with ⟨(f | p) | u, t⟩ <;> rfl

/-- The failure of the last of these tries, if it failed. -/
def lastFailure? (os : List Outcome) : Option Failure :=
  os.getLast?.bind fun
    | .ok () => none
    | .error e => some e

/-- The counters after these tries of one item. -/
def Counters.tried (c : Counters) (os : List Outcome) : Counters :=
  { c with retries := c.retries + (os.length - 1) }.bump
    (if (lastFailure? os).isSome then .failed else .processed)

theorem Counters.tried_good {os : List Outcome} (h : lastFailure? os = none) (c : Counters) :
    c.tried os =
      { c with processed := c.processed + 1, retries := c.retries + (os.length - 1) } := by
  simp [Counters.tried, h, Counters.bump]

theorem Counters.tried_failed {os : List Outcome} (h : lastFailure? os = some e) (c : Counters) :
    c.tried os = { c with failed := c.failed + 1, retries := c.retries + (os.length - 1) } := by
  simp [Counters.tried, h, Counters.bump]

theorem Handling.length_pos {n : ℕ} {os : List Outcome} (h : Handling n os) : 0 < os.length := by
  cases h <;> simp

/-- A failed try in front of others changes what they come to in one counter only. -/
theorem tried_cons {n : ℕ} {os : List Outcome} (h : Handling n os) (e : Failure) (c : Counters) :
    lastFailure? (.error e :: os) = lastFailure? os ∧
      (c.bump .retries).tried os = c.tried (.error e :: os) := by
  have hpos := h.length_pos
  have hlast : lastFailure? (.error e :: os) = lastFailure? os := by
    obtain ⟨o, os, rfl⟩ := List.exists_cons_of_length_pos hpos
    simp [lastFailure?]
  have hretries : c.retries + 1 + (os.length - 1) = c.retries + (os.length + 1 - 1) := by omega
  exact ⟨hlast, by simp [Counters.tried, hlast, Counters.bump, hretries]⟩

/-! ## What the next try decides -/

theorem attempts_ok (hw : w.process x s = (.ok (), t)) (n : ℕ) (c : Counters) :
    attempts w name x n c s = (none, c.bump .processed, t) := by
  unfold attempts
  rw [attempt_eq, hw]
  rfl

theorem attempts_last (hw : w.process x s = (.error e, t)) (c : Counters) :
    attempts w name x 0 c s = (some (e.blame name), c.bump .failed, t) := by
  unfold attempts
  rw [attempt_eq, hw]
  rfl

theorem attempts_again (hw : w.process x s = (.error e, t)) (n : ℕ) (c : Counters) :
    attempts w name x (n + 1) c s = attempts w name x n (c.bump .retries) t := by
  conv_lhs => unfold attempts
  rw [attempt_eq, hw]
  rfl

/-- **An item is tried until it succeeds or no further try is allowed**, whatever is observed of the
tries. -/
theorem attempts_spec (name : String) {P : List Outcome → σ → Prop}
    (hstep : ∀ {os s}, P os s → P (os ++ [(w.process x s).1]) (w.process x s).2) :
    ∀ (n : ℕ) (c : Counters) (os : List Outcome) {s : σ}, P os s →
      ∃ news s', Handling n news ∧ P (os ++ news) s' ∧
        attempts w name x n c s = ((lastFailure? news).map (·.blame name), c.tried news, s') := by
  intro n
  induction n with
  | zero =>
    intro c os s h
    have hafter := hstep h
    rcases hw : w.process x s with ⟨e | u, t⟩
    · rw [hw] at hafter
      exact ⟨_, t, .failure e, hafter, attempts_last hw c⟩
    · rw [hw] at hafter
      exact ⟨_, t, .success 0, hafter, attempts_ok hw 0 c⟩
  | succ n ih =>
    intro c os s h
    have hafter := hstep h
    rcases hw : w.process x s with ⟨e | u, t⟩
    · -- the tries that follow are those of an item with one try less
      rw [hw] at hafter
      obtain ⟨news, s', hnews, hafter', he⟩ := ih (c.bump .retries) _ hafter
      obtain ⟨hlast, hcounters⟩ := tried_cons hnews e c
      rw [List.append_assoc] at hafter'
      refine ⟨.error e :: news, s', .again e hnews, hafter', ?_⟩
      rw [attempts_again hw, he, hlast, hcounters]
    · rw [hw] at hafter
      exact ⟨_, t, .success (n + 1), hafter, attempts_ok hw (n + 1) c⟩

/-- What the work on items, the callback and the hook keep, a step of the background keeps. -/
theorem Machine.step_around {I : σ → Prop} {m m' : Machine α}
    (hprocess : ∀ x s, I s → I (w.process x s).2) (hnotify : ∀ f s, I s → I (w.notify f s))
    (hfinish : ∀ k s, I s → I (w.finish k s)) (h : I s) (he : m.step w s = some (m', t)) : I t := by
  obtain ⟨-, ⟨y, rest, -, -, -, rfl⟩ | ⟨y, -, hf⟩ | ⟨-, -, -, hf⟩⟩ := Machine.step_cases he
  · exact h
  · obtain ⟨os, v, -, hv, hattempts⟩ := attempts_spec (w := w) (x := y) m.name
      (P := fun _ v => I v) (fun h => hprocess y _ h) m.policy.retries m.counters [] h
    obtain rfl : t = _ := congrArg Prod.snd hf
    unfold Machine.handle
    rw [hattempts]
    cases lastFailure? os with
    | none => exact hv
    | some e =>
      obtain hs | hs := Machine.dispose_state w
        { m with inHand := none, counters := m.counters.tried os } (e.blame m.name) v
      · show I (Machine.dispose w _ _ _).2
        rw [hs]; exact hv
      · show I (Machine.dispose w _ _ _).2
        rw [hs]; exact hnotify _ v hv
  · obtain ⟨a, -, hfin⟩ := Machine.finish_eq w m s
    rw [hfin] at hf
    obtain rfl : t = _ := congrArg Prod.snd hf
    show I (if m.hook = .none then s else w.finish m.hook s)
    split
    · exact h
    · exact hfinish _ s h

/-- What the work on items, the callback and the hook keep, stopping keeps. -/
theorem Machine.stop_around {I : σ → Prop} (hprocess : ∀ x s, I s → I (w.process x s).2)
    (hnotify : ∀ f s, I s → I (w.notify f s)) (hfinish : ∀ k s, I s → I (w.finish k s)) (h : I s)
    (m : Machine α) : I (m.stop w s).2.2 := by
  unfold Machine.stop
  dsimp only
  split
  · exact h
  · exact Machine.steps_keep (P := fun _ s => I s)
      (fun h he => step_around hprocess hnotify hfinish h he) _ h

/-! ## What comes to the history -/

/-- What is around the worker after so many tries of an item. -/
def Work.around (w : Work α σ) (x : α) (s : σ) : ℕ → σ
  | 0 => s
  | k + 1 => (w.process x (w.around x s k)).2

/-- **The outcomes of the tries of an item**, if they never end. -/
def Work.outcome (w : Work α σ) (x : α) (s : σ) (k : ℕ) : Outcome :=
  (w.process x (w.around x s k)).1

/-- **The tries of an item are the first of these outcomes**, as many as the policy allows, and they
come to the history. -/
theorem attempts_outcomes (w : Work α σ) (name : String) (x : α) (n : ℕ) (c : Counters)
    (h : List (Happening α)) (s : σ) : ∃ os, Handling n os ∧
      os = (List.range os.length).map (w.outcome x s) ∧
      attempts w.recorded name x n c (h, s) =
        ((lastFailure? os).map (·.blame name), c.tried os, h ++ os.map (.tried x),
          w.around x s os.length) := by
  -- what was observed of the tries so far is what has come to the history, and to the state
  let observed (os : List Outcome) (q : List (Happening α) × σ) : Prop :=
    os = (List.range os.length).map (w.outcome x s) ∧
      q = (h ++ os.map (.tried x), w.around x s os.length)
  have hstep : ∀ {os q}, observed os q →
      observed (os ++ [(w.recorded.process x q).1]) (w.recorded.process x q).2 := by
    rintro os q ⟨hos, rfl⟩
    constructor
    · rw [List.length_append, List.length_singleton, List.range_succ, List.map_append, ← hos]
      rfl
    · rw [List.length_append, List.length_singleton, Work.around]
      simp [Work.recorded]
  have hstart : observed [] (h, s) := ⟨rfl, by simp [Work.around]⟩
  obtain ⟨os, q, hos, ⟨houtcomes, rfl⟩, he⟩ := attempts_spec name hstep n c [] hstart
  exact ⟨os, hos, houtcomes, he⟩

/-- All tries of an item, as the policy allows them, come to the history. -/
theorem attempts_recorded (w : Work α σ) (name : String) (x : α) (n : ℕ) (c : Counters)
    (h : List (Happening α)) (s : σ) : ∃ os t, Handling n os ∧
      attempts w.recorded name x n c (h, s) =
        ((lastFailure? os).map (·.blame name), c.tried os, h ++ os.map (.tried x), t) := by
  obtain ⟨os, hos, -, he⟩ := attempts_outcomes w name x n c h s
  exact ⟨os, _, hos, he⟩

/-- A fault that is disposed of is not recorded. -/
theorem dispose_recorded (w : Work α σ) (m : Machine α) (f : Fault) (h : List (Happening α))
    (s : σ) : (m.dispose w.recorded f (h, s)).2.1 = h := by
  unfold Machine.dispose
  split
  · rfl
  · rfl
  · split <;> rfl
  · rfl
  · rfl

/-- **Handling an item** adds the tries of this item to the history, and nothing else. -/
theorem handle_recorded (w : Work α σ) (m : Machine α) (x : α) (h : List (Happening α)) (s : σ) :
    ∃ os, Handling m.policy.retries os ∧
      (m.handle w.recorded x (h, s)).2.1 = h ++ os.map (.tried x) := by
  obtain ⟨os, t, hos, he⟩ := attempts_recorded w m.name x m.policy.retries m.counters h s
  refine ⟨os, hos, ?_⟩
  unfold Machine.handle
  rw [he]
  cases lastFailure? os with
  | none => rfl
  | some e => exact dispose_recorded w _ (e.blame m.name) _ t

/-! ## How often an item is tried -/

variable {n : ℕ} {os : List Outcome}

theorem Handling.length_le (h : Handling n os) : os.length ≤ n + 1 := by
  induction h with
  | success n => simp
  | failure e => simp
  | again e _ ih => simpa using ih

/-- An item that never fails is tried once. -/
theorem Handling.length_ok (h : Handling n os) (hok : ∀ o ∈ os, o = .ok ()) : os.length = 1 := by
  cases h with
  | success n => rfl
  | failure e => rfl
  | again e _ =>
    have := hok (.error e) (by simp)
    cases this

variable [BEq α] [LawfulBEq α] {l : List (α × Outcome)} {xs : List α}

theorem count_tries_self (x : α) (os : List Outcome) :
    ((os.map (x, ·)).map Prod.fst).count x = os.length := by
  simp [Function.comp_def]

theorem count_tries_other {x y : α} (h : x ≠ y) (os : List Outcome) :
    ((os.map (x, ·)).map Prod.fst).count y = 0 := by
  simp [Function.comp_def, List.count_replicate, h]

/-- **An item is tried once**, and again as often as is allowed at most. -/
theorem Collapses.count (h : Collapses n l xs) (y : α) :
    xs.count y ≤ (l.map Prod.fst).count y ∧ (l.map Prod.fst).count y ≤ (n + 1) * xs.count y := by
  induction h with
  | nil => simp
  | item x _ hos ih =>
    have hpos := hos.length_pos
    have hle := hos.length_le
    obtain ⟨hlow, hhigh⟩ := ih
    rw [List.map_append, List.count_append, List.count_append]
    by_cases hxy : x = y
    · subst hxy
      rw [count_tries_self, List.count_singleton_self, Nat.mul_add, Nat.mul_one]
      omega
    · have hzero : [x].count y = 0 := by simp [hxy]
      rw [count_tries_other hxy, hzero, Nat.add_zero, Nat.add_zero]
      exact ⟨hlow, hhigh⟩

/-- An item that never fails is tried once each time. -/
theorem Collapses.count_ok (h : Collapses n l xs) {y : α}
    (hok : ∀ o, (y, o) ∈ l → o = .ok ()) : (l.map Prod.fst).count y = xs.count y := by
  induction h with
  | nil => simp
  | item x _ hos ih =>
    have ih := ih fun o ho => hok o (List.mem_append_left _ ho)
    rw [List.map_append, List.count_append, List.count_append, ih]
    by_cases hxy : x = y
    · subst hxy
      have hone := hos.length_ok fun o ho =>
        hok o (List.mem_append_right _ (List.mem_map_of_mem ho))
      rw [count_tries_self, List.count_singleton_self, hone]
    · have hzero : [x].count y = 0 := by simp [hxy]
      rw [count_tries_other hxy, hzero]

end Worker

end Logging
