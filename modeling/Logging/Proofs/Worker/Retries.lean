import Logging.Proofs.Worker.Accounting

/-!
# When the tries of an item end

Whatever an item does to what is around the worker, its tries have outcomes, as many as one likes.
The worker looks at them one after the other, up to the first that is good or the last that the
policy allows.

* `outcome_scripted`: tries may have any outcomes.
* `DoneAfter`: after how many tries an item is done with; there is one such number.
* `Disposed`: what becomes of the fault of an item, by the policy.
* `item_done_with`: **an item is tried so many times and is done with.** It is counted once, the
  other tries are counted as repeated, and what is reported or dropped is the fault of the last.
-/

namespace Logging.Worker

variable {α σ : Type} {n k : ℕ} {o : ℕ → Outcome} {os : List Outcome}

/-- The work that has these outcomes, whatever the item, and counts the tries. -/
def Work.scripted (o : ℕ → Outcome) : Work α ℕ where
  process _ k := (o k, k + 1)
  notify _ k := k
  finish _ k := k

/-- **Tries may have any outcomes.** -/
theorem outcome_scripted (o : ℕ → Outcome) (x : α) : (Work.scripted o).outcome x 0 = o := by
  have haround : ∀ k, (Work.scripted o).around x 0 k = k := by
    intro k
    induction k with
    | zero => rfl
    | succ k ih => rw [Work.around, ih, Work.scripted]
  funext k
  rw [Work.outcome, haround, Work.scripted]

/-! ## The number of tries -/

/-- **After how many tries an item is done with**, if it may be tried so many times again: after the
first that is good, if that one is allowed, and otherwise after the last that is allowed. -/
inductive DoneAfter (n : ℕ) (o : ℕ → Outcome) : ℕ → Prop
  | good {k : ℕ} (hk : k ≤ n) (hgood : o k = .ok ()) (hfirst : ∀ i < k, o i ≠ .ok ()) :
      DoneAfter n o (k + 1)
  | never (hbad : ∀ i ≤ n, o i ≠ .ok ()) : DoneAfter n o (n + 1)

/-- There is one such number. -/
theorem DoneAfter.unique {k' : ℕ} (h : DoneAfter n o k) (h' : DoneAfter n o k') : k = k' := by
  cases h with
  | good hk hgood hfirst =>
    cases h' with
    | good hk' hgood' hfirst' =>
      rcases Nat.lt_trichotomy _ _ with hlt | heq | hgt
      · exact absurd hgood (hfirst' _ hlt)
      · exact congrArg (· + 1) heq
      · exact absurd hgood' (hfirst _ hgt)
    | never hbad => exact absurd hgood (hbad _ hk)
  | never hbad =>
    cases h' with
    | good hk' hgood' hfirst' => exact absurd hgood' (hbad _ hk')
    | never hbad' => rfl

/-- The tries of an item fail but for the last, which is good or the last that is allowed. -/
theorem Handling.ends (h : Handling n os) :
    (∃ front, os = front ++ [.ok ()] ∧ front.length ≤ n ∧ ∀ p ∈ front, p ≠ .ok ()) ∨
      (os.length = n + 1 ∧ ∀ p ∈ os, p ≠ .ok ()) := by
  induction h with
  | success n => exact .inl ⟨[], rfl, Nat.zero_le n, fun p hp => by cases hp⟩
  | failure e => exact .inr ⟨rfl, by simp⟩
  | again e _ ih =>
    obtain ⟨front, rfl, hlen, hbad⟩ | ⟨hlen, hbad⟩ := ih
    · exact .inl ⟨.error e :: front, rfl, by simpa using hlen, by simpa using hbad⟩
    · exact .inr ⟨by simpa using hlen, by simpa using hbad⟩

/-- What the tries of an item come to, if they are the first of these outcomes. -/
theorem Handling.doneAfter (h : Handling n os) (hos : os = (List.range os.length).map o) :
    DoneAfter n o os.length ∧
      (lastFailure? os = none ∧ o (os.length - 1) = .ok () ∨
        ∃ e, lastFailure? os = some e ∧ o (os.length - 1) = .error e) := by
  have hget : ∀ i, i < os.length → os[i]? = some (o i) := by
    intro i hi
    rw [hos]
    simp [hi]
  have hlast : os.getLast? = some (o (os.length - 1)) := by
    rw [List.getLast?_eq_getElem?]
    exact hget _ (Nat.sub_lt h.length_pos Nat.one_pos)
  have hfailure : lastFailure? os = none ∧ o (os.length - 1) = .ok () ∨
      ∃ e, lastFailure? os = some e ∧ o (os.length - 1) = .error e := by
    rw [lastFailure?, hlast]
    cases ho : o (os.length - 1) with
    | ok u => exact .inl ⟨rfl, rfl⟩
    | error e => exact .inr ⟨e, rfl, rfl⟩
  refine ⟨?_, hfailure⟩
  obtain ⟨front, hfront, hlen, hbad⟩ | ⟨hlen, hbad⟩ := h.ends
  · have hcount : os.length = front.length + 1 := by simp [hfront]
    rw [hcount]
    refine .good hlen ?_ fun i hi => ?_
    · have hgood := hget front.length (by omega)
      rw [hfront, List.getElem?_concat_length] at hgood
      exact (Option.some.inj hgood).symm
    · have hi' := hget i (by omega)
      rw [hfront, List.getElem?_append_left hi] at hi'
      exact hbad _ (List.mem_of_getElem? hi')
  · rw [hlen]
    exact .never fun i hi => hbad _ (List.mem_of_getElem? (hget i (by omega)))

/-! ## The fault of the last try -/

/-- **What becomes of the fault of an item**, by the policy: nothing; it is put into the channel, if
somebody may read it and there is room; or it is told to the callback, which returns. -/
inductive Disposed (w : Work α σ) (m : Machine α) (f : Fault) (s : σ) : Machine α → σ → Prop
  | dropped (h : m.policy.discards) : Disposed w m f s (m.count .dropped) s
  | lost {capacity : ℕ} {connected : Bool} (h : m.policy = .forward capacity connected)
      (hfull : connected → capacity ≤ m.channel.length) : Disposed w m f s (m.count .dropped) s
  | forwarded {capacity : ℕ} (h : m.policy = .forward capacity true)
      (hroom : m.channel.length < capacity) :
      Disposed w m f s ({ m with channel := m.channel ++ [f] }.count .reported) s
  | told (h : m.policy.tells) : Disposed w m f s (m.count .reported) (w.notify f s)

variable {m : Machine α}

theorem dispose_disposed (hp : m.policy.Returns) (w : Work α σ) (f : Fault) (s : σ) :
    Disposed w m f s (m.dispose w f s).1 (m.dispose w f s).2 := by
  unfold Machine.dispose
  cases h : m.policy with
  | drop => exact .dropped (by rw [h]; rfl)
  | retry times backoff => exact .dropped (by rw [h]; rfl)
  | forward capacity connected =>
    dsimp only
    split
    · rename_i hroom
      obtain ⟨rfl, hroom⟩ := hroom
      rw [← h]
      exact .forwarded h hroom
    · rename_i hroom
      refine .lost h fun hc => ?_
      by_contra hlt
      exact hroom ⟨hc, by omega⟩
  | callback b =>
    cases b with
    | none => exact .told (by rw [h]; rfl)
    | some e => exact absurd h (hp e)

/-! ## Handling an item -/

/-- **An item is tried so many times and is done with.** Whatever outcomes its tries would have if
they never ended, the worker makes just the first of them, up to the first that is good or the last
that the policy allows. If that one is good, the item counts as processed, and otherwise as failed;
the other tries count as repeated; and what is reported or dropped is the fault of the last try, for
which the worker is blamed if it broke off. Nothing else is changed. -/
theorem item_done_with (hp : m.policy.Returns) (w : Work α σ) (x : α) (h : List (Happening α))
    (s : σ) : ∃ k, DoneAfter m.policy.retries (w.outcome x s) k ∧
      let tried := (h ++ (List.range k).map fun i => .tried x (w.outcome x s i), w.around x s k)
      (w.outcome x s (k - 1) = .ok () ∧
        m.handle w.recorded x (h, s) = ({ m with counters := { m.counters with
          processed := m.counters.processed + 1
          retries := m.counters.retries + (k - 1) } }, tried)) ∨
      ∃ e, w.outcome x s (k - 1) = .error e ∧
        Disposed w.recorded { m with counters := { m.counters with
          failed := m.counters.failed + 1
          retries := m.counters.retries + (k - 1) } } (e.blame m.name) tried
          (m.handle w.recorded x (h, s)).1 (m.handle w.recorded x (h, s)).2 := by
  obtain ⟨os, hos, houtcomes, he⟩ :=
    attempts_outcomes w m.name x m.policy.retries m.counters h s
  obtain ⟨hdone, hlast⟩ := hos.doneAfter houtcomes
  have hhistory : os.map (.tried x) =
      (List.range os.length).map fun i => Happening.tried x (w.outcome x s i) := by
    conv_lhs => rw [houtcomes]
    rw [List.map_map]
    rfl
  rw [hhistory] at he
  refine ⟨os.length, hdone, ?_⟩
  intro tried
  unfold Machine.handle
  rw [he]
  obtain ⟨hnone, hgood⟩ | ⟨e, hsome, hbad⟩ := hlast
  · refine .inl ⟨hgood, ?_⟩
    rw [hnone, Counters.tried_good hnone]
    rfl
  · refine .inr ⟨e, hbad, ?_⟩
    have hdisposed := dispose_disposed (m := { m with counters := m.counters.tried os }) hp
      w.recorded (e.blame m.name) tried
    rw [Counters.tried_failed hsome] at hdisposed ⊢
    rw [hsome]
    exact hdisposed

/-- An item that breaks off whenever it is tried, and may be tried once more. -/
theorem item_done_with_panicking :
    let m : Machine ℕ := { name := "w", capacity := 1, policy := .retry 1 ⟨0⟩, hook := .none }
    let breaks : ℕ → Outcome := fun _ => Outcome.panic (.message "boom")
    m.policy.Returns ∧ DoneAfter 1 breaks 2 ∧
      ∃ e, breaks 1 = .error e ∧ e.blame "w" = .workerPanicked "w" "boom" ∧
        Disposed (Work.scripted breaks).recorded
          { m with counters := { m.counters with failed := 1, retries := 1 } } (e.blame "w")
          ([.tried 7 (breaks 0), .tried 7 (breaks 1)], 2)
          (m.handle (Work.scripted breaks).recorded 7 ([], 0)).1
          (m.handle (Work.scripted breaks).recorded 7 ([], 0)).2 := by
  intro m breaks
  have hp : m.policy.Returns := fun e => by simp [m]
  have hdone : DoneAfter 1 breaks 2 := .never fun i _ => by simp [breaks, Outcome.panic]
  obtain ⟨k, hk, hend⟩ := item_done_with hp (Work.scripted breaks) 7 [] 0
  rw [outcome_scripted] at hk hend
  obtain rfl : k = 2 := hk.unique hdone
  obtain ⟨hgood, -⟩ | ⟨e, he, hdisposed⟩ := hend
  · cases hgood
  · refine ⟨hp, hdone, e, he, ?_, hdisposed⟩
    cases he
    rfl

end Logging.Worker
