import Mathlib.Data.Nat.Notation
import Logging.Sink.FanOut

/-!
# Rounds of a fan-out

A write to a fan-out asks all its members, and comes to one outcome.

* `Round`: a write to all members, with what became of it at each of them.
* `branching`: a fan-out as a sink, with a list of its rounds.
* `visit_answers`: each member is asked once, and the write fails if one of them does.
* `branching_write`, `branching_flush`, `branching_close`: **every write is one round**, and
  nothing else is.
-/

namespace Logging.Sink

variable {ι σ : Type}

/-- A write to all members of a fan-out. -/
structure Round (ι : Type) where
  payload : ByteArray
  /-- What became of the write to each member, in order. -/
  answers : List (ι × Outcome)
  outcome : Outcome

/-- Every member was asked once, and the round failed if one of them did. -/
def Round.Asks (r : Round ι) (ms : List ι) : Prop :=
  r.answers.map Prod.fst = ms ∧ (r.outcome = .ok () ↔ ∀ a ∈ r.answers, a.2 = .ok ())

/-- A fan-out with its rounds, and what is around it. -/
structure Branches (ι σ : Type) where
  fanOut : FanOut ι
  rounds : List (Round ι) := []
  /-- The answers of the round that is going on. -/
  answers : List (ι × Outcome) := []
  state : σ

instance [Terminal σ] : Terminal (Branches ι σ) where
  print k b s := { s with state := Terminal.print k b s.state }

/-- A member of a fan-out, whose answers to writes are kept. -/
def Destination.answering (i : ι) (d : Destination σ) : Destination (Branches ι σ) where
  name s := d.name s.state
  write p s :=
    let (o, t) := d.write p s.state
    (o, { s with answers := s.answers ++ [(i, o)], state := t })
  flush s :=
    let (o, t) := d.flush s.state
    (o, { s with state := t })
  close s :=
    let (o, t) := d.close s.state
    (o, { s with state := t })

/-- A fan-out as a sink, with a list of its rounds. -/
def branching [Terminal σ] (near : ι → Destination σ) : Destination (Branches ι σ) where
  name _ := FanOut.name
  write p s :=
    let (o, t) := s.fanOut.write (fun i => (near i).answering i) p { s with answers := [] }
    (o, { t with rounds := t.rounds ++ [⟨p, t.answers, o⟩], answers := [] })
  flush s := s.fanOut.flush (fun i => (near i).answering i) s
  close s :=
    let (o, f, t) := s.fanOut.close (fun i => (near i).answering i) s
    (o, { t with fanOut := f })

section Rounds

variable [Terminal σ] (near : ι → Destination σ)

/-- That a member broke off changes nothing but what is around, and stays a failure. -/
theorem contain_branches (place : ℕ) (member action : String) (o : Outcome) (s : Branches ι σ) :
    ∃ o' t, FanOut.contain place member action o s = (o', { s with state := t }) ∧
      (o' = .ok () ↔ o = .ok ()) := by
  rcases o with (f | p) | u
  · exact ⟨_, s.state, rfl, by simp⟩
  · exact ⟨_, _, rfl, by simp [Outcome.fault]⟩
  · exact ⟨_, s.state, rfl, by simp⟩

theorem first_ok (a b : Outcome) : a.first b = .ok () ↔ a = .ok () ∧ b = .ok () := by
  rcases a with e | u
  · simp [Outcome.first]
  · simp [Outcome.first]

/-- **A write to the members** asks each of them once, in order. -/
theorem visit_answers (p : ByteArray) : ∀ (ms : List ι) (place : ℕ) (s : Branches ι σ),
    ∃ o as t, FanOut.visit (fun i => (near i).answering i) "write" (fun d s => d.write p s) place ms
        s = (o, { s with answers := s.answers ++ as, state := t }) ∧
      as.map Prod.fst = ms ∧ (o = .ok () ↔ ∀ a ∈ as, a.2 = .ok ()) := by
  intro ms
  induction ms with
  | nil =>
    intro place s
    exact ⟨.ok (), [], s.state, by simp [FanOut.visit], rfl, by simp⟩
  | cons m ms ih =>
    intro place s
    rcases hw : (near m).write p s.state with ⟨o, u⟩
    obtain ⟨o', v, hcontain, hok⟩ := contain_branches place ((near m).name u) "write" o
      { s with answers := s.answers ++ [(m, o)], state := u }
    obtain ⟨others, as, t, hrest, has, hothers⟩ := ih (place + 1)
      { s with answers := s.answers ++ [(m, o)], state := v }
    refine ⟨o'.first others, (m, o) :: as, t, ?_, ?_, ?_⟩
    · simp only [FanOut.visit, Destination.answering, hw, hcontain]
      simp only [Destination.answering] at hrest
      rw [hrest]
      simp
    · simp [has]
    · rw [first_ok, hok, hothers]
      simp

/-- Flushing or closing the members changes nothing but what is around. -/
theorem visit_branches (action : String)
    (op : Destination (Branches ι σ) → Branches ι σ → Outcome × Branches ι σ)
    (hop : ∀ i s, ∃ o t, op ((near i).answering i) s = (o, { s with state := t })) :
    ∀ (ms : List ι) (place : ℕ) (s : Branches ι σ),
      ∃ o t, FanOut.visit (fun i => (near i).answering i) action op place ms s =
        (o, { s with state := t }) := by
  intro ms
  induction ms with
  | nil => intro place s; exact ⟨.ok (), s.state, rfl⟩
  | cons m ms ih =>
    intro place s
    obtain ⟨o, u, hu⟩ := hop m s
    obtain ⟨o', v, hcontain, -⟩ := contain_branches place ((near m).name u) action o
      { s with state := u }
    obtain ⟨others, t, hrest⟩ := ih (place + 1) { s with state := v }
    refine ⟨o'.first others, t, ?_⟩
    simp only [FanOut.visit, hu]
    rw [show ((near m).answering m).name { s with state := u } = (near m).name u from rfl, hcontain]
    dsimp only
    rw [hrest]

/-- **A write to an open fan-out** is one round. -/
theorem branching_write {s : Branches ι σ} (hopen : s.fanOut.closed = false) (p : ByteArray) :
    ∃ r t, (branching near).write p s =
        (r.outcome, { s with rounds := s.rounds ++ [r], answers := [], state := t }) ∧
      r.payload = p ∧ r.Asks s.fanOut.members := by
  obtain ⟨o, as, t, hvisit, has, ho⟩ := visit_answers near p s.fanOut.members 0
    { s with answers := [] }
  refine ⟨⟨p, as, o⟩, t, ?_, rfl, has, ho⟩
  simp only [branching, FanOut.write, hopen, Bool.false_eq_true, if_false]
  rw [hvisit]
  simp

theorem branching_flush (s : Branches ι σ) :
    ∃ o t, (branching near).flush s = (o, { s with state := t }) :=
  visit_branches near "flush" (fun d s => d.flush s) (fun _ _ => ⟨_, _, rfl⟩) s.fanOut.members 0 s

theorem branching_close (s : Branches ι σ) : ∃ o f t,
    (branching near).close s = (o, { s with fanOut := f, state := t }) ∧
      f.members = s.fanOut.members := by
  obtain ⟨o, t, hvisit⟩ := visit_branches near "close" (fun d s => d.close s)
    (fun _ _ => ⟨_, _, rfl⟩) s.fanOut.members 0 s
  cases hc : s.fanOut.closed with
  | true => exact ⟨.ok (), s.fanOut, s.state, by simp [branching, FanOut.close, hc], rfl⟩
  | false =>
    refine ⟨o, { s.fanOut with closed := true }, t, ?_, rfl⟩
    simp only [branching, FanOut.close, hc, Bool.false_eq_true, if_false]
    rw [hvisit]

end Rounds

end Logging.Sink
