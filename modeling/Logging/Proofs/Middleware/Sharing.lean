import Mathlib.Data.List.Induction
import Logging.Proofs.Middleware.Journeys

/-!
# Chains that share stages

Any number of records are on their ways through any chains, and one goes on after the other, in any
order: between two stages of one journey, others may go through the same stages.

* `Road`: journeys, the stages that they share, and what came by at them.
* `Road.run`: what happens, move by move.
* `run_alone`: **a record that is sent and goes on alone is handled by its chain.**
* `Sampler.Lawful`: what a sampler has counted agrees with what came by.
* `sampler_law`: **a sampler lets through what is exempt and one of so many of the rest, and counts
  it, whatever chains the records came through and in whatever order.**
-/

namespace Logging

/-- A record came to a stage, which let it go on or held it back. -/
structure Passage where
  stage : Nat
  level : Level
  kept : Bool
  deriving DecidableEq, Repr

/-- Records on their ways, the last one sent last. -/
structure Road where
  stages : Stages
  network : Network
  journeys : List Journey := []
  /-- What came by, the first one first. -/
  passages : List Passage := []

/-- What may happen. -/
inductive Move where
  /-- A record is sent through a chain. -/
  | send (chain : Chain) (c : Context) (r : Record)
  /-- A journey goes on by one step. -/
  | advance (i : Nat)
  /-- Stages are made. -/
  | make (new : Stages)
  /-- Something else happens to the sinks. -/
  | meanwhile (f : Network → Network)

/-- What comes by in the next step of a journey. -/
def Journey.passage? (draws : Draws) (j : Journey) (st : Stages) : Option Passage :=
  match j.place with
  | .facing (id :: _) c r => st[id]?.map fun x => ⟨id, r.level, (x.meet draws id c r st).1.passes⟩
  | _ => none

namespace Road

def move (draws : Draws) (road : Road) : Move → Road
  | .send chain c r => { road with journeys := road.journeys ++ [.start chain c r] }
  | .advance i =>
    match road.journeys[i]? with
    | none => road
    | some j =>
      let (j', st, w) := Journey.step draws (j, road.stages, road.network)
      { stages := st
        network := w
        journeys := road.journeys.set i j'
        passages := road.passages ++ (j.passage? draws road.stages).toList }
  | .make new => { road with stages := road.stages ++ new }
  | .meanwhile f => { road with network := f road.network }

def run (draws : Draws) (road : Road) (moves : List Move) : Road := moves.foldl (move draws) road

/-- What came to a stage. -/
def cameTo (road : Road) (id : Nat) : List Passage := road.passages.filter (·.stage = id)

variable {draws : Draws}

theorem run_snoc (road : Road) (moves : List Move) (m : Move) :
    road.run draws (moves ++ [m]) = (road.run draws moves).move draws m := by
  simp [run]

/-! ## A record alone -/

/-- Steps of one journey are the steps that it takes by itself. -/
theorem run_advance {road : Road} {i : ℕ} {j : Journey} (h : road.journeys[i]? = some j) (k : ℕ) :
    ∃ passages, road.run draws (List.replicate k (.advance i)) =
      let (j', st, w) := (Journey.step draws)^[k] (j, road.stages, road.network)
      ⟨st, w, road.journeys.set i j', passages⟩ := by
  induction k generalizing road j with
  | zero =>
    obtain ⟨hi, rfl⟩ := List.getElem?_eq_some_iff.1 h
    exact ⟨road.passages, by simp [run]⟩
  | succ k ih =>
    rw [Function.iterate_succ_apply]
    rcases hstep : Journey.step draws (j, road.stages, road.network) with ⟨j', st, w⟩
    have hmove : road.move draws (.advance i) =
        ⟨st, w, road.journeys.set i j',
          road.passages ++ (j.passage? draws road.stages).toList⟩ := by
      simp only [move, h, hstep]
    have hj : (road.move draws (.advance i)).journeys[i]? = some j' := by
      obtain ⟨hi, -⟩ := List.getElem?_eq_some_iff.1 h
      rw [hmove, List.getElem?_set_self hi]
    obtain ⟨passages, hrun⟩ := ih hj
    refine ⟨passages, ?_⟩
    rw [List.replicate_succ, run, List.foldl_cons]
    rw [run] at hrun
    rw [hrun, hmove]
    simp only [List.set_set]

/-- **A record that is sent and goes on alone is handled by its chain**: it comes to the same
outcome, the same stages and the same sinks. -/
theorem run_alone (road : Road) (chain : Chain) (c : Context) (r : Record) :
    ∃ k passages,
      road.run draws (.send chain c r :: List.replicate k (.advance road.journeys.length)) =
        let (o, st, w) := chain.handle draws c r road.stages road.network
        ⟨st, w, road.journeys ++ [⟨chain, .ended o, []⟩], passages⟩ := by
  obtain ⟨k, hk⟩ := Journey.comes_handle draws chain c r road.stages road.network
  have hsent : (road.move draws (.send chain c r)).journeys[road.journeys.length]? =
      some (.start chain c r) := by
    simp [move]
  obtain ⟨passages, hrun⟩ := run_advance hsent k
  refine ⟨k, passages, ?_⟩
  rw [run] at hrun
  rw [run, List.foldl_cons, hrun]
  simp only [move, hk, Journey.arrived]
  simp

end Road

/-! ## Samplers -/

/-- What a sampler has counted agrees with what came by. -/
structure Sampler.Lawful (n : ℕ) (exempt : List Level) (came : List Passage) (s : Sampler) :
    Prop where
  every : s.every = n
  exempted : s.exempt = exempt
  seen : s.seen = came.countP (·.level ∉ exempt)
  /-- What is exempt is let through, and of the rest what as many came before as can be divided by
  the number. -/
  kept : ∀ before p after, came = before ++ p :: after →
    (p.kept = true ↔ p.level ∈ exempt ∨ n ∣ before.countP (·.level ∉ exempt))
  sampled : s.counts.sampled = came.countP (·.kept)
  dropped : s.counts.dropped = came.countP (!·.kept)
  total : s.counts.total = s.counts.sampled + s.counts.dropped

namespace Sampler

variable {n : ℕ} {exempt : List Level} {came : List Passage} {s : Sampler}

theorem Lawful.new {x : Sampler} (h : new n exempt = .ok x) : Lawful n exempt [] x := by
  unfold Sampler.new at h
  split at h
  · cases h
  · cases h
    exact ⟨rfl, rfl, rfl, by simp, rfl, rfl, rfl⟩

theorem tally_of_lt {k : ℕ} (h : k + 1 < UInt64.size) : tally k = k + 1 :=
  Nat.mod_eq_of_lt h

/-- Everything that came was let through or held back. -/
theorem Lawful.length (h : Lawful n exempt came s) :
    came.length = s.counts.sampled + s.counts.dropped := by
  have hlength := List.length_eq_countP_add_countP (·.kept) (l := came)
  rw [h.sampled, h.dropped, hlength]
  simp

/-- A sampler decides about one more. -/
theorem Lawful.decide (h : Lawful n exempt came s) (hfew : came.length + 1 < UInt64.size)
    (id : ℕ) (l : Level) :
    Lawful n exempt (came ++ [⟨id, l, (s.decide l).1⟩]) (s.decide l).2 := by
  have hlength := h.length
  have hseen : tally s.seen = s.seen + 1 := by
    have := List.countP_le_length (p := (·.level ∉ exempt)) (l := came)
    exact tally_of_lt (by have := h.seen; omega)
  have hkept : s.keeps l = true ↔ l ∈ exempt ∨ n ∣ came.countP (·.level ∉ exempt) := by
    rw [keeps, h.exempted, h.every, h.seen, Bool.or_eq_true, List.contains_iff_mem,
      decide_eq_true_eq, Nat.dvd_iff_mod_eq_zero]
  -- fewer came than a count can hold, so no count begins again at zero
  have hcounts : ((s.decide l).2.counts.sampled = s.counts.sampled + (s.keeps l).toNat) ∧
      ((s.decide l).2.counts.dropped = s.counts.dropped + (!s.keeps l).toNat) ∧
      (s.decide l).2.counts.total = s.counts.total + 1 := by
    have htotal := h.total
    simp only [Sampler.decide, SampleCounts.record]
    cases s.keeps l
    · exact ⟨rfl, tally_of_lt (by omega), tally_of_lt (by omega)⟩
    · exact ⟨tally_of_lt (by omega), rfl, tally_of_lt (by omega)⟩
  obtain ⟨hsampled, hdropped, htotal⟩ := hcounts
  constructor
  · exact h.every
  · exact h.exempted
  · rw [List.countP_append, ← h.seen]
    simp only [Sampler.decide, h.exempted, hseen]
    by_cases hl : l ∈ exempt <;> simp [hl]
  · -- the one that comes now, or one that came before it
    intro before p after heq
    rcases List.eq_nil_or_concat after with rfl | ⟨after, last, rfl⟩
    · obtain ⟨rfl, hp⟩ := List.append_inj' heq rfl
      obtain rfl := (List.cons.inj hp).1
      exact hkept
    · rw [List.concat_eq_append, ← List.cons_append, ← List.append_assoc] at heq
      exact h.kept before p after (List.append_inj' heq rfl).1
  · rw [hsampled, List.countP_append, ← h.sampled]
    cases hk : s.keeps l <;> simp [Sampler.decide, hk]
  · rw [hdropped, List.countP_append, ← h.dropped]
    cases hk : s.keeps l <;> simp [Sampler.decide, hk]
  · rw [htotal, hsampled, hdropped, h.total]
    cases s.keeps l <;> simp <;> omega

end Sampler

/-! ## Samplers on the road -/

variable {draws : Draws}

/-- A stage that a record comes to changes itself only. -/
theorem Stage.meet_other (x : Stage) (draws : Draws) {id id' : ℕ} (h : id ≠ id') (c : Context)
    (r : Record) (st : Stages) : (x.meet draws id c r st).2[id']? = st[id']? := by
  cases x with
  | sampler x => exact Array.getElem?_setIfInBounds_ne h
  | random x => exact Array.getElem?_setIfInBounds_ne h
  | _ => rfl

theorem Stage.passes_sampler (x : Sampler) (id : ℕ) (c : Context) (r : Record) (st : Stages) :
    ((sampler x).meet draws id c r st).1.passes = (x.decide r.level).1 := by
  simp only [meet]
  cases (x.decide r.level).1 <;> rfl

/-- What functions of the program remember does not reach samplers. -/
theorem Stage.sampler_modify {st : Stages} {id : ℕ} {s : Sampler} (h : st[id]? = some (.sampler s))
    (id' : ℕ) (memory : Fields) :
    (st.modify id' (remembering memory))[id]? = some (.sampler s) := by
  rw [Array.getElem?_modify]
  split <;> simp [h, remembering]

/-- A step of a journey leaves the stages alone, or a function of the program remembers something,
or a record comes to a stage. -/
theorem Journey.step_cases (draws : Draws) (j : Journey) (st : Stages) (w : Network) :
    (j.passage? draws st = none ∧ (step draws (j, st, w)).2.1 = st) ∨
      (∃ id memory, j.passage? draws st = none ∧
        (step draws (j, st, w)).2.1 = st.modify id (Stage.remembering memory)) ∨
      ∃ id c r x, st[id]? = some x ∧
        j.passage? draws st = some ⟨id, r.level, (x.meet draws id c r st).1.passes⟩ ∧
        (step draws (j, st, w)).2.1 = (x.meet draws id c r st).2 := by
  obtain ⟨chain, place, tasks⟩ := j
  cases place with
  | facing ids c r =>
    cases ids with
    | nil => exact .inl ⟨rfl, rfl⟩
    | cons id rest =>
      cases hx : st[id]? with
      | none => exact .inl ⟨by simp [passage?, hx], by simp [step, hx]⟩
      | some x =>
        exact .inr (.inr ⟨id, c, r, x, hx, by simp [passage?, hx], by simp [step, hx]⟩)
  | amid id course behind =>
    cases course with
    | remember memory go => exact .inr (.inl ⟨id, memory, rfl, rfl⟩)
    | _ => exact .inl ⟨rfl, rfl⟩
  | ended o =>
    cases tasks with
    | nil => exact .inl ⟨rfl, rfl⟩
    | cons task tasks => exact .inl ⟨rfl, rfl⟩

namespace Road

/-- The sampler of that number has counted what came to it. -/
def Counts (n : ℕ) (exempt : List Level) (id : ℕ) (road : Road) : Prop :=
  ∃ s, road.stages[id]? = some (.sampler s) ∧ s.Lawful n exempt (road.cameTo id)

theorem cameTo_move (draws : Draws) (road : Road) (m : Move) (id : ℕ) :
    ∃ more, (road.move draws m).cameTo id = road.cameTo id ++ more := by
  cases m with
  | advance i =>
    simp only [move]
    split
    · exact ⟨[], (List.append_nil _).symm⟩
    · exact ⟨_, List.filter_append _ _⟩
  | _ => exact ⟨[], (List.append_nil _).symm⟩

variable {n : ℕ} {exempt : List Level} {id : ℕ} {road : Road}

/-- Whatever happens next, the sampler counts it. -/
theorem Counts.move (h : road.Counts n exempt id) (m : Move)
    (hfew : ((road.move draws m).cameTo id).length < UInt64.size) :
    (road.move draws m).Counts n exempt id := by
  obtain ⟨s, hs, hlaw⟩ := h
  cases m with
  | send chain c r => exact ⟨s, hs, hlaw⟩
  | make new =>
    have hlt : id < road.stages.size := (Array.getElem?_eq_some_iff.1 hs).1
    exact ⟨s, (Array.getElem?_append_left hlt).trans hs, hlaw⟩
  | meanwhile f => exact ⟨s, hs, hlaw⟩
  | advance i =>
    cases hj : road.journeys[i]? with
    | none => simpa only [Road.move, hj] using ⟨s, hs, hlaw⟩
    | some j =>
      have hcame : (road.move draws (.advance i)).cameTo id = road.cameTo id ++
          (j.passage? draws road.stages).toList.filter (·.stage = id) := by
        simp only [Road.move, hj, cameTo, List.filter_append]
      have hstages : (road.move draws (.advance i)).stages =
          (Journey.step draws (j, road.stages, road.network)).2.1 := by
        simp only [Road.move, hj]
      rw [Counts, hcame, hstages]
      rw [hcame] at hfew
      rcases j.step_cases draws road.stages road.network with
        ⟨hp, hst⟩ | ⟨id', memory, hp, hst⟩ | ⟨id', c, r, x, hx, hp, hst⟩
      · rw [hp, hst]
        simpa using ⟨s, hs, hlaw⟩
      · rw [hp, hst]
        simpa using ⟨s, Stage.sampler_modify hs id' memory, hlaw⟩
      -- a record comes to a stage: to the sampler, or to one that leaves the sampler alone
      rw [hst, hp]
      rw [hp] at hfew
      by_cases hid : id' = id
      · subst hid
        obtain rfl : x = .sampler s := Option.some_inj.1 (hx.symm.trans hs)
        have hlt : id' < road.stages.size := (Array.getElem?_eq_some_iff.1 hs).1
        rw [Stage.passes_sampler] at hfew ⊢
        refine ⟨(s.decide r.level).2, Array.getElem?_setIfInBounds_self_of_lt hlt, ?_⟩
        simp only [Option.toList_some, List.filter_cons, decide_true, if_true, List.filter_nil,
          List.length_append, List.length_singleton] at hfew ⊢
        exact hlaw.decide hfew id' r.level
      · have hother := x.meet_other draws hid c r road.stages
        simpa [hid] using ⟨s, hother.trans hs, hlaw⟩

theorem Counts.run (h : road.Counts n exempt id) (moves : List Move)
    (hfew : ((road.run draws moves).cameTo id).length < UInt64.size) :
    (road.run draws moves).Counts n exempt id := by
  induction moves using List.reverseRecOn with
  | nil => exact h
  | append_singleton moves m ih =>
    rw [run_snoc] at hfew ⊢
    obtain ⟨more, hmore⟩ := cameTo_move draws (road.run draws moves) m id
    have hbefore : ((road.run draws moves).cameTo id).length < UInt64.size := by
      rw [hmore, List.length_append] at hfew
      omega
    exact (ih hbefore).move m hfew

end Road

/-- **The law of samplers.** A sampler for one record of `n` can be made, and it lets through what
is exempt and, of the rest, each record before which as many came as `n` divides; and it counts what
it let through and what it held back. That is so after any records came to it through any chains
that share it, on their ways at the same time, as long as they are fewer than two to the 64th. -/
theorem sampler_law {n : ℕ} (hn : 1 ≤ n) (exempt : List Level) :
    ∃ x, Sampler.new n exempt = .ok x ∧
      ∀ (draws : Draws) (st : Stages) (w : Network) (id : ℕ) (moves : List Move),
        st[id]? = some (.sampler x) →
          let road := Road.run draws ⟨st, w, [], []⟩ moves
          (road.cameTo id).length < UInt64.size →
            ∃ s, road.stages[id]? = some (.sampler s) ∧ s.Lawful n exempt (road.cameTo id) := by
  refine ⟨{ every := n, exempt }, by rw [Sampler.new, if_neg (by omega)], ?_⟩
  intro draws st w id moves hx road hfew
  have hstart : Road.Counts n exempt id ⟨st, w, [], []⟩ :=
    ⟨_, hx, .new (by rw [Sampler.new, if_neg (by omega)])⟩
  exact hstart.run moves hfew

/-- Two chains share a sampler for one of two. A record of one of them comes in between the two
times that the other sends its record through the sampler. -/
theorem sampler_law_shared :
    ∃ x, Sampler.new 2 [.error] = .ok x ∧
      let twice : Custom := { act := fun c r => .call c r fun _ => .call c r .answer }
      let st : Stages := #[.sampler x, .custom twice]
      let often : Chain := { stages := [1, 0], arrival := .capture }
      let once : Chain := { stages := [0], arrival := .capture }
      let info : Record := ⟨.info, "a", .empty, none⟩
      let road := Road.run (fun _ _ => default) ⟨st, { disk := { nodes := [], files := #[] } }, [], []⟩
        [.send often .empty info, .send once .empty { info with level := .error }, .advance 0,
          .advance 0, .advance 0, .send once .empty info, .advance 1, .advance 2, .advance 0,
          .advance 0, .advance 0, .advance 0]
      st[0]? = some (.sampler x) ∧ (road.cameTo 0).length < UInt64.size ∧
        road.cameTo 0 =
          [⟨0, .info, true⟩, ⟨0, .error, true⟩, ⟨0, .info, false⟩, ⟨0, .info, true⟩] ∧
        ∃ s, road.stages[0]? = some (.sampler s) ∧ s.Lawful 2 [.error] (road.cameTo 0) := by
  obtain ⟨x, hx, hlaw⟩ := sampler_law (n := 2) (by decide) [.error]
  obtain rfl := Except.ok.inj hx
  refine ⟨_, hx, rfl, by decide, by decide, ?_⟩
  exact hlaw _ _ _ 0 _ rfl (by decide)

end Logging
