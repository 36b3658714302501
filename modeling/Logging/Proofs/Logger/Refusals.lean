import Logging.Logger.Basic
import Logging.Proofs.Middleware.Alongside
import Logging.Proofs.Middleware.Lasting
import Logging.Proofs.Network.Closed

/-!
# Log calls to a closed sink

The sink of a logger was closed. A record that comes to it is refused; whether one comes is up to
the stages on its way, and a function of the program may answer what it likes.

* `Course.HandsOn`: a function of the program that passes on every failure of the rest of the way.
* `Course.Brings`: it may answer with something that the rest did not answer.
* `Arrivals`, `Logger.arrivals`: the records that come to the end of a way that refuses them.
* `Answers`: the outcome of a way, by what came to its end.
* `onward_refused`: **a way to an end that refuses** ends with the refusal if a record came to the
  end and the functions on it pass on failures; if none came, it ends well or as one of them brings.
* `Logger.isRefused_of_closed`: **a logger whose sink is closed is refused**, and delivers nothing.
-/

namespace Logging

open Sink

variable {draws : Draws} {st st' : Stages} {id : ℕ} {x : Stage} {o refusal : Outcome}

/-! ## What functions of the program pass on -/

namespace Course

/-- The course ends with that outcome, without another call. -/
def Ends (o : Outcome) : Course → Prop
  | answer o' => o' = o
  | call .. => False
  | tell _ go => go.Ends o
  | consult go => ∀ memory, (go memory).Ends o
  | remember _ go => go.Ends o

/-- **Every failure of the rest of the way is passed on**: the course ends with it at once. -/
def HandsOn : Course → Prop
  | answer _ => True
  | call _ _ go => (go (.ok ())).HandsOn ∧ ∀ o, o ≠ .ok () → (go o).Ends o
  | tell _ go => go.HandsOn
  | consult go => ∀ memory, (go memory).HandsOn
  | remember _ go => go.HandsOn

/-- **The course may end with an outcome that no call of the rest ended with.** -/
inductive Brings (o : Outcome) : Course → Prop
  | answer : Brings o (.answer o)
  | call {c : Context} {r : Record} {go : Outcome → Course} (o' : Outcome) (hne : o' ≠ o)
      (h : Brings o (go o')) : Brings o (.call c r go)
  | tell {e : Event} {go : Course} (h : Brings o go) : Brings o (.tell e go)
  | consult {go : Fields → Course} (memory : Fields) (h : Brings o (go memory)) :
      Brings o (.consult go)
  | remember {memory : Fields} {go : Course} (h : Brings o go) : Brings o (.remember memory go)

theorem handsOn_tellIf {wanted : Bool} {e : Event} {go : Course} :
    (tellIf wanted e go).HandsOn ↔ go.HandsOn := by
  cases wanted <;> rfl

theorem ends_tellIf {wanted : Bool} {e : Event} {go : Course} :
    (tellIf wanted e go).Ends o ↔ go.Ends o := by
  cases wanted <;> rfl

theorem brings_tellIf {wanted : Bool} {e : Event} {go : Course} :
    (tellIf wanted e go).Brings o ↔ go.Brings o := by
  cases wanted with
  | false => rfl
  | true =>
    refine ⟨fun h => ?_, .tell⟩
    cases h with
    | tell h => exact h

/-- An observer passes everything on. -/
theorem handsOn_observing (name : String) (before after : Bool) (c : Context) (r : Record) :
    (observing name before after c r).HandsOn := by
  rw [observing, handsOn_tellIf]
  exact ⟨handsOn_tellIf.2 trivial, fun o _ => ends_tellIf.2 rfl⟩

/-- An observer brings nothing. -/
theorem not_brings_observing (name : String) (before after : Bool) (c : Context) (r : Record) :
    ¬(observing name before after c r).Brings o := by
  rw [observing, brings_tellIf]
  rintro (_ | ⟨o', hne, h⟩)
  cases brings_tellIf.1 h
  exact hne rfl

end Course

/-- What a stage makes of a record: it holds it back, lets it go on, or takes a course; and only a
function of the program takes one that does not pass everything on. -/
theorem Stage.meet_cases (x : Stage) (draws : Draws) (id : ℕ) (c : Context) (r : Record)
    (st : Stages) :
    (x.meet draws id c r st).1 = .stop (.ok ()) ∨
      (∃ c' r', (x.meet draws id c r st).1 = .pass c' r') ∨
      ∃ course, (x.meet draws id c r st).1 = .start course ∧
        ((∃ m, x = .custom m ∧ course = m.act c r) ∨
          course.HandsOn ∧ ∀ o, ¬course.Brings o) := by
  cases x with
  | levelFilter | sampler | random =>
    simp only [meet]
    split
    · simp
    · simp
  | observer name before after =>
    exact .inr (.inr ⟨_, rfl, .inr ⟨Course.handsOn_observing name before after c r,
      fun _ => Course.not_brings_observing name before after c r⟩⟩)
  | custom m => exact .inr (.inr ⟨_, rfl, .inl ⟨m, rfl, rfl⟩⟩)
  | _ => exact .inr (.inl ⟨_, _, rfl⟩)

/-! ## Ends that refuse -/

/-- The records that came to the end of a way. -/
structure Arrivals where
  records : List Record := []

instance : EventLog Arrivals := ⟨fun _ a => a⟩

/-- An end that takes note of every record and refuses it. -/
def Arrivals.refuse (attach : Record → Record) (refusal : Outcome) (r : Record) (a : Arrivals) :
    Outcome × Arrivals :=
  (refusal, ⟨a.records ++ [attach r]⟩)

/-- A function of the program on a way may answer so, whatever the rest answers. -/
def BringsAmong (ids : List ℕ) (st : Stages) (o : Outcome) : Prop :=
  ∃ id ∈ ids, ∃ m c r, st[id]? = some (.custom m) ∧ (m.act c r).Brings o

/-- All functions of the program on a way pass on every failure of the rest. -/
def HandOnAmong (ids : List ℕ) (st : Stages) : Prop :=
  ∀ id ∈ ids, ∀ m, st[id]? = some (.custom m) → ∀ c r, (m.act c r).HandsOn

section

variable {ids ids' : List ℕ}

theorem BringsAmong.of_same (h : BringsAmong ids' st' o) (hst : SameStages st st')
    (hids : ids' ⊆ ids) : BringsAmong ids st o := by
  obtain ⟨j, hj, m, c, r, hget, hbrings⟩ := h
  obtain ⟨m', hget', hact⟩ := hst.custom hget
  exact ⟨j, hids hj, m', c, r, hget', hact ▸ hbrings⟩

theorem HandOnAmong.of_same (h : HandOnAmong ids st) (hst : SameStages st st') (hids : ids' ⊆ ids) :
    HandOnAmong ids' st' := by
  intro j hj m hget c r
  obtain ⟨m', hget', hact⟩ := hst.custom hget
  exact hact ▸ h j (hids hj) m' hget' c r

end

/-- **The outcome of a way through these stages, by the records that came to its end**, where every
record is refused. -/
structure Answers (refusal : Outcome) (ids : List ℕ) (st : Stages) (rs : List Record)
    (o : Outcome) : Prop where
  /-- A record that was held back ends well, or as a function of the program brings. -/
  heldBack : rs = [] → o = .ok () ∨ BringsAmong ids st o
  /-- A record that came to the end is refused, if the functions on the way pass that on. -/
  refused : rs ≠ [] → HandOnAmong ids st → o = refusal

/-- What a way did whose end refuses every record: these records came there, and so it ended. -/
def Refused (refusal : Outcome) (ids : List ℕ) (st : Stages) (a : Arrivals)
    (e : Outcome × Stages × Arrivals) : Prop :=
  ∃ rs, e.2.2.records = a.records ++ rs ∧ Answers refusal ids st rs e.1

theorem Refused.behind {rest : List ℕ} {a : Arrivals} {e : Outcome × Stages × Arrivals}
    (h : Refused refusal rest st' a e) (hst : SameStages st st') :
    Refused refusal (id :: rest) st a e := by
  obtain ⟨rs, hrs, hanswers⟩ := h
  have hids := List.subset_cons_self id rest
  exact ⟨rs, hrs, fun hnone => (hanswers.heldBack hnone).imp_right (·.of_same hst hids),
    fun hsome hhand => hanswers.refused hsome (hhand.of_same hst hids)⟩

/-- A course that only ends does so as it is told to, and nothing comes to the end of the way. -/
theorem Course.Ends.follow {course : Course} (h : course.Ends o) (id : ℕ) (next : Way Arrivals)
    (st : Stages) (a : Arrivals) :
    (course.follow id next st a).1 = o ∧ (course.follow id next st a).2.2 = a := by
  induction course generalizing st a with
  | answer o' => exact ⟨h, rfl⟩
  | call c r go ih => exact h.elim
  | tell e go ih => exact ih h st a
  | consult go ih => exact ih _ (h _) st a
  | remember memory go ih => exact ih h _ a

/-- The course of a stage around a way whose end refuses. The induction is on the course; after each
call of the rest it goes on with how that ended. -/
theorem Course.follow_refused (hrefusal : refusal ≠ .ok ()) {rest : List ℕ} {next : Way Arrivals}
    (hsame : next.KeepsStages) (hnext : ∀ c r st a, Refused refusal rest st a (next c r st a))
    (id : ℕ) (course : Course) (st : Stages) (a : Arrivals) :
    let e := course.follow id next st a
    ∃ rs, e.2.2.records = a.records ++ rs ∧
      (rs = [] → e.1 = .ok () ∨ BringsAmong rest st e.1 ∨ course.Brings e.1) ∧
      (rs ≠ [] → HandOnAmong rest st → course.HandsOn → e.1 = refusal) := by
  induction course generalizing st a with
  | answer o =>
    exact ⟨[], (List.append_nil _).symm, fun _ => .inr (.inr .answer), fun h => absurd rfl h⟩
  | tell e go ih =>
    obtain ⟨rs, hrs, hnone, hsome⟩ := ih st a
    exact ⟨rs, hrs, fun h => (hnone h).imp_right (·.imp_right .tell), hsome⟩
  | consult go ih =>
    obtain ⟨rs, hrs, hnone, hsome⟩ := ih _ st a
    exact ⟨rs, hrs, fun h => (hnone h).imp_right (·.imp_right (.consult _)),
      fun h hhand hon => hsome h hhand (hon _)⟩
  | remember memory go ih =>
    have hst := SameStages.remember st id memory
    obtain ⟨rs, hrs, hnone, hsome⟩ := ih (st.modify id (Stage.remembering memory)) a
    exact ⟨rs, hrs,
      fun h => (hnone h).imp_right (·.imp (·.of_same hst fun _ h => h) .remember),
      fun h hhand hon => hsome h (hhand.of_same hst fun _ h => h) hon⟩
  | call c r go ih =>
    have hst := hsame c r st a
    obtain ⟨rs, hrs, hanswers⟩ := hnext c r st a
    simp only [follow]
    generalize next c r st a = ended at *
    obtain ⟨o, st', a'⟩ := ended
    obtain ⟨rs', hrs', hnone, hsome⟩ := ih o st' a'
    refine ⟨rs ++ rs', by rw [hrs', hrs, List.append_assoc], fun h => ?_, fun h hhand hon => ?_⟩
    · obtain ⟨rfl, rfl⟩ := List.append_eq_nil_iff.1 h
      by_cases ho : o = ((go o).follow id next st' a').1
      · rw [← ho]
        exact (hanswers.heldBack rfl).imp_right .inl
      · exact (hnone rfl).imp_right (·.imp (·.of_same hst fun _ h => h) (.call o ho))
    · by_cases ho : o = .ok ()
      · -- the call ended well, so no record was refused in it
        subst ho
        have hfirst : rs = [] := by
          by_contra hne
          exact hrefusal (hanswers.refused hne hhand).symm
        rw [hfirst, List.nil_append] at h
        exact hsome h (hhand.of_same hst fun _ h => h) hon.1
      · obtain ⟨hend, hleft⟩ := (hon.2 o ho).follow id next st' a'
        have hrest : rs' = [] := by
          rw [hleft] at hrs'
          exact List.self_eq_append_right.1 hrs'
        rw [hrest, List.append_nil] at h
        rw [hend]
        exact hanswers.refused h hhand

/-- **A way to an end that refuses.** -/
theorem onward_refused (hrefusal : refusal ≠ .ok ()) (draws : Draws) (attach : Record → Record)
    (ids : List ℕ) (c : Context) (r : Record) (st : Stages) (a : Arrivals) :
    Refused refusal ids st a (onward draws (Arrivals.refuse attach refusal) ids c r st a) := by
  induction ids generalizing c r st a with
  | nil => exact ⟨[attach r], rfl, nofun, fun _ _ => rfl⟩
  | cons id rest ih =>
    cases hx : st[id]? with
    | none =>
      rw [onward_absent _ _ hx]
      exact (ih c r st a).behind (.refl st)
    | some x =>
      rw [onward_meet _ _ hx]
      have hst := x.meet_same hx draws c r
      have hids := List.subset_cons_self id rest
      obtain hmeet | ⟨c', r', hmeet⟩ | ⟨course, hmeet, hcourse⟩ := x.meet_cases draws id c r st
      · rw [hmeet]
        exact ⟨[], (List.append_nil _).symm, fun _ => .inl rfl, fun h => absurd rfl h⟩
      · rw [hmeet]
        exact (ih c' r' _ a).behind hst
      · rw [hmeet]
        obtain ⟨rs, hrs, hnone, hsome⟩ :=
          course.follow_refused hrefusal (onward_same draws _ rest) ih id
            (x.meet draws id c r st).2 a
        refine ⟨rs, hrs, fun h => (hnone h).imp_right ?_, fun h hhand => ?_⟩
        · rintro (hbrings | hbrings)
          · exact hbrings.of_same hst hids
          · obtain ⟨m, rfl, rfl⟩ | ⟨-, hno⟩ := hcourse
            · exact ⟨id, List.mem_cons_self, m, c, r, hx, hbrings⟩
            · exact absurd hbrings (hno _)
        · refine hsome h (hhand.of_same hst hids) ?_
          obtain ⟨m, rfl, rfl⟩ | ⟨hon, -⟩ := hcourse
          · exact hhand id List.mem_cons_self m hx c r
          · exact hon

/-! ## Loggers -/

/-- The way of a record through a chain whose end refuses it. -/
def Chain.refusing (draws : Draws) (chain : Chain) (refusal : Outcome) (c : Context) (r : Record)
    (st : Stages) : Outcome × Stages × Arrivals :=
  onward draws (Arrivals.refuse chain.attach refusal) chain.stages c r st {}

/-- The records that come to be formatted in a log call, if the sink refuses them. -/
def Logger.arrivals (draws : Draws) (l : Logger) (refusal : Outcome) (c : Context) (r : Record)
    (st : Stages) : List Record :=
  if l.isEnabled r.level then (l.chain.refusing draws refusal c r st).2.2.records else []

namespace Network

/-- Nothing happened to the network but that something was told. -/
def OnlyTold (w w' : Network) : Prop :=
  ∃ es bs, w' = { w with events := es, backgroundEvents := bs }

theorem OnlyTold.refl (w : Network) : w.OnlyTold w := ⟨w.events, w.backgroundEvents, rfl⟩

theorem OnlyTold.emit {w w' : Network} (h : w.OnlyTold w') (e : Event) :
    w.OnlyTold (w'.emit e) := by
  obtain ⟨es, bs, rfl⟩ := h
  unfold Network.emit
  split
  · exact ⟨_, _, rfl⟩
  · exact ⟨_, _, rfl⟩

end Network

/-- **A logger is refused**: its log calls change nothing, but that something is told, and their
outcomes are up to what came to be formatted. -/
def Logger.IsRefused (l : Logger) (sink : String) (st : Stages) (w : Network) : Prop :=
  ∀ (draws : Draws) (c : Context) (r : Record), w.OnlyTold (l.logWith draws c r st w).2.2 ∧
    Answers (closedOutcome sink) l.chain.stages st (l.arrivals draws (closedOutcome sink) c r st)
      (l.logWith draws c r st w).1

/-- **A logger whose sink is closed is refused.** -/
theorem Logger.isRefused_of_closed {l : Logger} {w : Network} {root : SinkId}
    {format : Line.Format} {name : String} (hl : l.chain.arrival = .write format root)
    (hclosed : (w.cell root).ClosedAs name) (st : Stages) : l.IsRefused name st w := by
  intro draws c r
  unfold logWith arrivals
  split
  · have hne : closedOutcome name ≠ .ok () := nofun
    obtain ⟨rs, hrs, hanswers⟩ := onward_refused hne draws l.chain.attach l.chain.stages c r st {}
    have halong : Alongside (fun v (_ : Arrivals) => w.OnlyTold v) (l.chain.handle draws c r st w)
        (l.chain.refusing draws (closedOutcome name) c r st) := by
      refine onward_simulates (fun e _ _ h => h.emit e) (fun r v _ h => ?_) draws _ c r st (.refl w)
      -- the sink is as it was in the beginning, so it refuses
      have hcell : v.cell root = w.cell root := by
        obtain ⟨es, bs, rfl⟩ := h
        rfl
      have hwrite := Network.closed_write (hcell ▸ hclosed) (format.bytes (l.chain.attach r))
      simp only [hl, ChainEnd.handle, hwrite]
      exact ⟨rfl, h⟩
    refine ⟨halong.states, ?_⟩
    rw [halong.first, Chain.refusing, hrs]
    exact hanswers
  · exact ⟨.refl w, fun _ => .inl rfl, fun h => absurd rfl h⟩

end Logging
