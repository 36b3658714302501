import Mathlib.Data.List.Nodup
import Mathlib.Data.List.Count
import Logging.Proofs.Sink.Branching
import Logging.Sink.Memory

/-!
# What the members of a fan-out have received

A member that takes every write has one payload for each round. What the others refuse is tried
again by the worker of the queue in front, and so the member has it again.

* `received`: the payloads that a member was given and took.
* `count_offers`: what was accepted, and what was refused at once, counted by payload.
* `fan_out_delivers`: **once the queue was closed, a member that took every write has every payload
  that was accepted: once, and once more for each time that it was tried again because another
  member failed.**
-/

namespace Logging

open Sink Worker

namespace Sink

variable {ι σ : Type} {ms : List ι} {m₀ : Machine ByteArray}

/-- Byte arrays that are found equal are equal, so that they can be counted. -/
instance lawfulBEqByteArray : LawfulBEq ByteArray where
  eq_of_beq h := ByteArray.ext (eq_of_beq h)
  rfl {p} := beq_self_eq_true p.data

/-- The payloads that were accepted. -/
def acceptedPayloads (os : List Offer) : List ByteArray :=
  (os.filter (·.outcome = .ok ())).map Offer.payload

/-- The payloads that found the queue of that length full and were refused by some member. -/
def failedAtOnce (n : ℕ) (os : List Offer) : List ByteArray :=
  (os.filter fun x => x.waiting = n ∧ x.outcome ≠ .ok ()).map Offer.payload

/-- What was accepted was taken into the queue or went to the members at once. -/
theorem count_offers (n : ℕ) (os : List Offer) (p : ByteArray) :
    (acceptedPayloads os).count p + (failedAtOnce n os).count p =
        (takenIn n os).count p + ((pastFull n os).map Prod.fst).count p ∧
      (takenIn n os).count p ≤ (acceptedPayloads os).count p := by
  induction os with
  | nil => exact ⟨rfl, Nat.le_refl _⟩
  | cons x os ih =>
    simp only [acceptedPayloads, failedAtOnce, takenIn, pastFull, ne_eq] at ih ⊢
    by_cases h₁ : x.waiting = n <;> by_cases h₂ : x.outcome = .ok ()
    all_goals
      simp only [List.filter_cons, h₁, h₂, not_true_eq_false, not_false_eq_true, and_true,
        and_false, decide_true, decide_false, if_true, Bool.false_eq_true, if_false,
        List.map_cons, List.count_cons]
      omega

variable [DecidableEq ι]

/-- The payloads that a member was given and took, in order. -/
def received (i : ι) (rs : List (Round ι)) : List ByteArray :=
  rs.flatMap fun r => (r.answers.filter fun a => a.1 = i ∧ a.2 = .ok ()).map fun _ => r.payload

/-- The member takes every write. -/
def Steady (i : ι) (rs : List (Round ι)) : Prop :=
  ∀ r ∈ rs, ∀ a ∈ r.answers, a.1 = i → a.2 = .ok ()

/-- A member that takes every write has the payload of every round once. -/
theorem received_eq {i : ι} {rs : List (Round ι)} (hn : ms.Nodup) (hi : i ∈ ms)
    (hr : ∀ r ∈ rs, r.Asks ms) (hok : Steady i rs) :
    received i rs = rs.map Round.payload := by
  have hround : ∀ r ∈ rs,
      ((r.answers.filter fun a => a.1 = i ∧ a.2 = .ok ()).map fun _ => r.payload) =
        [r.payload] := by
    intro r hmem
    have hfilter : (r.answers.filter fun a => a.1 = i ∧ a.2 = .ok ()) =
        r.answers.filter fun a => a.1 = i := by
      refine List.filter_congr fun a ha => ?_
      by_cases hai : a.1 = i
      · simp [hai, hok r hmem a ha hai]
      · simp [hai]
    have hcount : (r.answers.filter fun a => a.1 = i).length = 1 := by
      have hone : (r.answers.map Prod.fst).count i = 1 := by
        rw [(hr r hmem).1]
        exact List.count_eq_one_of_mem hn hi
      rw [← hone, ← List.countP_eq_length_filter, List.count, List.countP_map]
      exact List.countP_congr fun a _ => by simp
    rw [hfilter, List.map_const', hcount]
    rfl
  unfold received
  rw [List.map_eq_flatMap]
  exact List.flatMap_congr hround

/-! ## Once the queue was closed -/

namespace Outlet.Spreads

variable {c : Outlet ι σ} {i : ι}

/-- A member that takes every write has what was tried, and what was written at once. -/
theorem count_received (k : c.Spreads m₀ ms) (hn : ms.Nodup) (hi : i ∈ ms)
    (hok : Steady i c.branches.rounds) (p : ByteArray) :
    (received i c.branches.rounds).count p = ((tries c.history).map Prod.fst).count p +
      ((pastFull m₀.capacity c.offers).map Prod.fst).count p := by
  have hways := k.rounded.ways.map Prod.fst
  rw [List.map_map, List.map_append] at hways
  rw [received_eq hn hi k.rounded.asks hok, ← List.count_append]
  exact hways.count_eq p

/-- It has whatever was accepted, and each time again at most as often as the policy allows. -/
theorem bounds (k : c.Spreads m₀ ms) (hc : c.queue.closed) (hn : ms.Nodup) (hi : i ∈ ms)
    (hok : Steady i c.branches.rounds) (p : ByteArray) :
    (acceptedPayloads c.offers).count p + (failedAtOnce m₀.capacity c.offers).count p ≤
        (received i c.branches.rounds).count p ∧
      (received i c.branches.rounds).count p ≤
        (m₀.policy.retries + 1) * (acceptedPayloads c.offers).count p +
          (failedAtOnce m₀.capacity c.offers).count p := by
  obtain ⟨hlow, hhigh⟩ := (k.collapses hc).count p
  obtain ⟨hsum, hle⟩ := count_offers m₀.capacity c.offers p
  have hmul := Nat.mul_le_mul_left m₀.policy.retries hle
  rw [k.count_received hn hi hok p]
  rw [Nat.add_mul, Nat.one_mul] at hhigh ⊢
  omega

/-- It has a payload exactly as often as it was accepted, if no member refused it: it was not tried
again, and it did not fail at once. -/
theorem once (k : c.Spreads m₀ ms) (hc : c.queue.closed) (hn : ms.Nodup) (hi : i ∈ ms)
    (hok : Steady i c.branches.rounds) {p : ByteArray}
    (hall : ∀ r ∈ c.branches.rounds, r.payload = p → ∀ a ∈ r.answers, a.2 = .ok ()) :
    (received i c.branches.rounds).count p = (acceptedPayloads c.offers).count p := by
  have hcount := (k.collapses hc).count_ok fun o ho =>
    k.round_ok hall (List.mem_append_left _ ho)
  have hnone : (failedAtOnce m₀.capacity c.offers).count p = 0 := by
    refine List.count_eq_zero.2 fun hmem => ?_
    obtain ⟨x, hx, rfl⟩ := List.mem_map.1 hmem
    obtain ⟨hx, hwait⟩ := List.mem_filter.1 hx
    obtain ⟨hwait, hne⟩ := of_decide_eq_true hwait
    refine hne (k.round_ok hall (List.mem_append_right _ ?_))
    exact List.mem_map.2 ⟨x, List.mem_filter.2 ⟨hx, by simpa using hwait⟩, rfl⟩
  obtain ⟨hsum, -⟩ := count_offers m₀.capacity c.offers p
  rw [k.count_received hn hi hok p, hcount]
  omega

end Outlet.Spreads

/-- **What the members of a fan-out have received** after these moves, behind a queue of that
length, whose policy allows so many further tries. -/
structure Outlet.Reaches (capacity retries : ℕ) (ms : List ι) (as : List Outlet.Move)
    (c : Outlet ι σ) : Prop where
  /-- Every round asks every member once, and fails if one of them does. -/
  asks : ∀ r ∈ c.branches.rounds, r.Asks ms
  /-- Once the queue was closed, a member that took every write has whatever was accepted, and
  each time again at most as often as the policy allows. It also has what another member refused at
  once, which was not accepted. -/
  bounds : .close ∈ as → ∀ i ∈ ms, Steady i c.branches.rounds → ∀ p,
    (acceptedPayloads c.offers).count p + (failedAtOnce capacity c.offers).count p ≤
        (received i c.branches.rounds).count p ∧
      (received i c.branches.rounds).count p ≤
        (retries + 1) * (acceptedPayloads c.offers).count p +
          (failedAtOnce capacity c.offers).count p
  /-- It has a payload exactly as often as it was accepted, if no member refused it. -/
  once : .close ∈ as → ∀ i ∈ ms, Steady i c.branches.rounds → ∀ p,
    (∀ r ∈ c.branches.rounds, r.payload = p → ∀ a ∈ r.answers, a.2 = .ok ()) →
      (received i c.branches.rounds).count p = (acceptedPayloads c.offers).count p
  /-- It has every payload exactly as often, whatever the others refused, if the policy allows no
  further try. -/
  exactly : retries = 0 → .close ∈ as → ∀ i ∈ ms, Steady i c.branches.rounds →
    (received i c.branches.rounds).Perm
      (acceptedPayloads c.offers ++ failedAtOnce capacity c.offers)

/-- **A fan-out behind a queue delivers to every member**, and repeats what some member refused.
This holds at every moment of every run, for every policy whose callback returns and every pattern
of failures. -/
theorem fan_out_delivers [Terminal σ] {name : String} {capacity : ℕ} {policy : Policy}
    {hook : Hook} (hm : Machine.new name capacity policy hook = .ok m₀) (hp : policy.Returns)
    (hn : ms.Nodup) (e : Members ι σ) (s : σ) (as : List Outlet.Move) :
    Outlet.Reaches capacity policy.retries ms as (Outlet.run e
      { queue := { machine := m₀ }, branches := { fanOut := ⟨ms, false⟩, state := s } } as) := by
  obtain ⟨hpos, hm₀⟩ := Machine.new_ok hm
  have hcap : m₀.capacity = capacity := by rw [hm₀]
  have hpolicy : m₀.policy = policy := by rw [hm₀]
  rw [← hcap, ← hpolicy]
  have k := Outlet.run_spreads (e := e) (hcap ▸ hpos) (hpolicy ▸ hp) as _ (.start hm ms s)
  have hclosed : .close ∈ as → (Outlet.run e
      { queue := { machine := m₀ }, branches := { fanOut := ⟨ms, false⟩, state := s } }
      as).queue.closed := fun ha => Outlet.run_closed as _ (.inr ha)
  refine ⟨k.rounded.asks, fun ha i hi hok p => k.bounds (hclosed ha) hn hi hok p,
    fun ha i hi hok p hall => k.once (hclosed ha) hn hi hok hall, fun hzero ha i hi hok => ?_⟩
  -- without further tries the two bounds are the same
  refine List.perm_iff_count.2 fun p => ?_
  obtain ⟨hlow, hhigh⟩ := k.bounds (hclosed ha) hn hi hok p
  rw [hzero] at hhigh
  rw [List.count_append]
  omega

/-- Two sinks for tries: the first refuses so many writes, the second is a memory sink. -/
structure Pair where
  refusals : ℕ
  memory : Memory := {}

instance : Terminal Pair where
  print _ _ s := s

def Pair.near : ℕ → Destination Pair
  | 0 =>
    { name := fun _ => "reluctant"
      write := fun _ s => if s.refusals = 0 then (.ok (), s)
        else (Outcome.fault (.other "no"), { s with refusals := s.refusals - 1 })
      flush := fun s => (.ok (), s)
      close := fun s => (.ok (), s) }
  | _ =>
    { name := fun _ => Memory.name
      write := fun p s => ((s.memory.write p).1, { s with memory := (s.memory.write p).2 })
      flush := fun s => (.ok (), s)
      close := fun s => (.ok (), { s with memory := s.memory.close }) }

/-- One more try for every payload, and room for one: of three payloads the second finds the queue
full, and the first sink refuses it and then, once, the first. -/
theorem fan_out_delivers_reluctant :
    ∃ m₀ : Machine ByteArray, Machine.new "worker" 1 (.retry 1 ⟨0⟩) .none = .ok m₀ ∧
      (Policy.retry 1 ⟨0⟩).Returns ∧ [0, 1].Nodup ∧
      let as := [.write ⟨#[1]⟩, .write ⟨#[2]⟩, .deliver, .write ⟨#[3]⟩, .flush, .close,
        .write ⟨#[4]⟩]
      let c := Outlet.run ⟨Pair.near, fun _ s => s, fun _ s => s⟩
        { queue := { machine := m₀ }, branches := { fanOut := ⟨[0, 1], false⟩, state := ⟨2, {}⟩ } }
        as
      Outlet.Reaches 1 1 [0, 1] as c ∧
        received 1 c.branches.rounds = [⟨#[2]⟩, ⟨#[1]⟩, ⟨#[1]⟩, ⟨#[3]⟩] := by
  have hp : (Policy.retry 1 ⟨0⟩).Returns := fun _ => by simp
  have hm : Machine.new (α := ByteArray) "worker" 1 (.retry 1 ⟨0⟩) .none =
      .ok { name := "worker", capacity := 1, policy := .retry 1 ⟨0⟩, hook := .none } := rfl
  have hn : [0, 1].Nodup := by decide
  exact ⟨_, hm, hp, hn, fan_out_delivers hm hp hn _ _ _, rfl⟩

/-- A member that takes every write has a payload twice that was accepted once: another member
refused it, and it was tried again. -/
theorem fan_out_repeats :
    ∃ m₀ : Machine ByteArray, Machine.new "worker" 4 (.retry 1 ⟨0⟩) .none = .ok m₀ ∧
      (Policy.retry 1 ⟨0⟩).Returns ∧ [0, 1].Nodup ∧
      let c := Outlet.run ⟨Pair.near, fun _ s => s, fun _ s => s⟩
        { queue := { machine := m₀ }, branches := { fanOut := ⟨[0, 1], false⟩, state := ⟨1, {}⟩ } }
        [.write ⟨#[1]⟩, .close]
      c.queue.closed ∧ Steady 1 c.branches.rounds ∧ acceptedPayloads c.offers = [⟨#[1]⟩] ∧
        received 1 c.branches.rounds = [⟨#[1]⟩, ⟨#[1]⟩] ∧
        (received 1 c.branches.rounds).count ⟨#[1]⟩ ≠ (acceptedPayloads c.offers).count ⟨#[1]⟩ := by
  refine ⟨_, rfl, fun _ => by simp, by decide, ?_⟩
  intro c
  have hrounds : c.branches.rounds =
      [⟨⟨#[1]⟩, [(0, Outcome.fault (.other "no")), (1, .ok ())], Outcome.fault (.other "no")⟩,
        ⟨⟨#[1]⟩, [(0, .ok ()), (1, .ok ())], .ok ()⟩] := rfl
  have haccepted : acceptedPayloads c.offers = [⟨#[1]⟩] := rfl
  have hreceived : received 1 c.branches.rounds = [⟨#[1]⟩, ⟨#[1]⟩] := by
    rw [hrounds]
    rfl
  refine ⟨rfl, ?_, haccepted, hreceived, ?_⟩
  · rw [hrounds]
    unfold Steady
    decide
  · rw [hreceived, haccepted]
    decide

end Sink

end Logging
