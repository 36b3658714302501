import Mathlib.Data.List.Basic
import Logging.Network.Basic

/-!
# The members of a fan-out do not get in each other's way

Whatever a member does with a call, the members behind it are called as well. Whoever calls the
fan-out is told of the first failure, and of a member that broke off as of one that failed.

* `Turn`, `Destination.observed`: a call of a member with its outcome, and a member whose turns are
  listed.
* `visit_turns`: **every member has its turn**, whatever becomes of the others.
* `Change`, `Rearranged`: what becomes of a list of members.
* `fan_out_isolates`: both, for every call and any sequence of changes.
-/

namespace Logging

/-- The fault that a failure of a sink of that name counts as. -/
def Failure.contained (name : String) : Failure → Fault
  | .fault f => f
  | .panic p => .sinkPanicked name p.text

namespace Sink

variable {ι σ : Type}

/-! ## Turns -/

/-- The turn of a member. -/
structure Turn (ι : Type) where
  member : ι
  call : Call
  outcome : Outcome
  /-- The member's name afterwards. -/
  name : String

/-- What the turn counts as. -/
def Turn.counted (x : Turn ι) : Outcome := x.outcome.mapError fun e => .fault (e.contained x.name)

theorem Turn.counted_ok (x : Turn ι) : x.counted = .ok () ↔ x.outcome = .ok () := by
  unfold counted
  cases x.outcome with
  | error e => simp [Except.mapError]
  | ok u => simp [Except.mapError]

/-- A state with the turns that members have had. -/
structure Observed (ι σ : Type) where
  turns : List (Turn ι) := []
  state : σ

instance [Terminal σ] : Terminal (Observed ι σ) where
  print k b s := { s with state := Terminal.print k b s.state }

namespace Destination

/-- A call of a sink. -/
def act (c : Call) (d : Destination σ) (s : σ) : Outcome × σ :=
  match c with
  | .write p => d.write p s
  | .flush => d.flush s
  | .close => d.close s

/-- A call of a member whose turns are listed. -/
def turn (i : ι) (d : Destination σ) (c : Call) (s : Observed ι σ) : Outcome × Observed ι σ :=
  let (o, t) := d.act c s.state
  (o, { turns := s.turns ++ [⟨i, c, o, d.name t⟩], state := t })

/-- **The same sink, with its turns listed.** -/
def observed (i : ι) (d : Destination σ) : Destination (Observed ι σ) where
  name s := d.name s.state
  write p s := d.turn i (.write p) s
  flush s := d.turn i .flush s
  close s := d.turn i .close s

theorem act_observed (i : ι) (d : Destination σ) (c : Call) (s : Observed ι σ) :
    (d.observed i).act c s = d.turn i c s := by
  cases c <;> rfl

end Destination

/-- The first failure that a list of turns counts as. -/
def firstFailure (xs : List (Turn ι)) : Outcome :=
  xs.foldr (fun x others => x.counted.first others) (.ok ())

theorem firstFailure_ok (xs : List (Turn ι)) :
    firstFailure xs = .ok () ↔ ∀ x ∈ xs, x.outcome = .ok () := by
  induction xs with
  | nil => simp [firstFailure]
  | cons x xs ih =>
    have hfirst : firstFailure (x :: xs) = x.counted.first (firstFailure xs) := rfl
    rw [hfirst, List.forall_mem_cons, ← ih, ← x.counted_ok]
    cases x.counted with
    | error e => simp [Outcome.first]
    | ok u => simp [Outcome.first]

theorem firstFailure_eq {before after : List (Turn ι)} {x : Turn ι} {e : Failure}
    (hbefore : ∀ y ∈ before, y.outcome = .ok ()) (hx : x.outcome = .error e) :
    firstFailure (before ++ x :: after) = Outcome.fault (e.contained x.name) := by
  induction before with
  | nil =>
    have hcounted : x.counted = Outcome.fault (e.contained x.name) := by
      unfold Turn.counted
      rw [hx]
      rfl
    show x.counted.first (firstFailure after) = _
    rw [hcounted]
    rfl
  | cons y before ih =>
    rw [List.forall_mem_cons] at hbefore
    have hy : y.counted = .ok () := y.counted_ok.2 hbefore.1
    show y.counted.first (firstFailure (before ++ x :: after)) = _
    rw [hy]
    exact ih hbefore.2

namespace FanOut

variable [Terminal σ]

/-- That a member broke off is reported; whoever called is told what its turn counts as. -/
theorem contain_observed (place : ℕ) (action : String) (x : Turn ι) (xs : List (Turn ι)) (s : σ) :
    ∃ t, contain place x.name action x.outcome s = (x.counted, t) ∧
      contain place x.name action x.outcome (⟨xs, s⟩ : Observed ι σ) = (x.counted, ⟨xs, t⟩) := by
  obtain ⟨i, c, o, name⟩ := x
  rcases o with (f | p) | u
  · exact ⟨s, rfl, rfl⟩
  · exact ⟨report (panicLine place name action p.text) s, rfl, rfl⟩
  · exact ⟨s, rfl, rfl⟩

/-- **Every member has its turn**, in order and with the same call. -/
theorem visit_turns (near : ι → Destination σ) (action : String) (c : Call) :
    ∀ (ms : List ι) (place : ℕ) (xs : List (Turn ι)) (s : σ), ∃ ys t,
      visit (fun i => (near i).observed i) action (fun d s => d.act c s) place ms ⟨xs, s⟩ =
        (firstFailure ys, ⟨xs ++ ys, t⟩) ∧
      visit near action (fun d s => d.act c s) place ms s = (firstFailure ys, t) ∧
      ys.map (fun y => (y.member, y.call)) = ms.map fun i => (i, c) := by
  intro ms
  induction ms with
  | nil =>
    intro place xs s
    exact ⟨[], s, by rw [List.append_nil]; rfl, rfl, rfl⟩
  | cons m ms ih =>
    intro place xs s
    rcases hact : (near m).act c s with ⟨o, u⟩
    set x : Turn ι := ⟨m, c, o, (near m).name u⟩ with hx
    have hturn : ((near m).observed m).act c ⟨xs, s⟩ = (o, ⟨xs ++ [x], u⟩) := by
      rw [Destination.act_observed, Destination.turn, hact]
    obtain ⟨v, hcontain, hcontain'⟩ := contain_observed place action x (xs ++ [x]) u
    obtain ⟨ys, t, hobserved, hplain, hys⟩ := ih (place + 1) (xs ++ [x]) v
    refine ⟨x :: ys, t, ?_, ?_, ?_⟩
    · simp only [visit, hturn]
      have hname : ((near m).observed m).name ⟨xs ++ [x], u⟩ = x.name := rfl
      rw [hname, hcontain']
      simp only [hobserved]
      rw [List.append_assoc]
      rfl
    · simp only [visit, hact]
      rw [hcontain]
      simp only [hplain]
      rfl
    · rw [List.map_cons, hys]
      rfl

/-! ## Calls of a fan-out -/

/-- A call of a fan-out. -/
def act (near : ι → Destination σ) (c : Call) (f : FanOut ι) (s : σ) : Outcome × FanOut ι × σ :=
  match c with
  | .write p =>
    let (o, s) := f.write near p s
    (o, f, s)
  | .flush =>
    let (o, s) := f.flush near s
    (o, f, s)
  | .close => f.close near s

/-- Whether the members come to know of a call: of every flush, and of what else comes before the
fan-out is closed. -/
def passesOn (f : FanOut ι) : Call → Bool
  | .flush => true
  | _ => !f.closed

/-- A call that is passed on visits the members. -/
theorem act_eq {f : FanOut ι} {c : Call} (h : f.passesOn c) :
    ∃ action closed, ∀ {τ : Type} [Terminal τ] (near : ι → Destination τ) (s : τ),
      f.act near c s = ((visit near action (fun d s => d.act c s) 0 f.members s).1,
        { f with closed := closed },
        (visit near action (fun d s => d.act c s) 0 f.members s).2) := by
  obtain ⟨ms, closed⟩ := f
  cases c with
  | flush => exact ⟨"flush", closed, fun near s => rfl⟩
  | write p =>
    cases closed with
    | false => exact ⟨"write", false, fun near s => rfl⟩
    | true => simp [passesOn] at h
  | close =>
    cases closed with
    | false => exact ⟨"close", true, fun near s => rfl⟩
    | true => simp [passesOn] at h

end FanOut

/-! ## Changes of the members -/

/-- A change of the members. -/
inductive Change (ι : Type) where
  | add (m : ι)
  | remove (m : ι)

/-- The members that are added. -/
def added (cs : List (Change ι)) : List ι :=
  cs.filterMap fun
    | .add m => some m
    | .remove _ => none

/-- **What becomes of a list of members**: one that is added comes last, and of those that are the
one to be removed the first goes. -/
inductive Rearranged : List ι → List (Change ι) → List ι → Prop
  | done (l : List ι) : Rearranged l [] l
  | added {l l' : List ι} {cs : List (Change ι)} {m : ι} (h : Rearranged (l ++ [m]) cs l') :
    Rearranged l (.add m :: cs) l'
  | removed {l₁ l₂ l' : List ι} {cs : List (Change ι)} {m : ι} (hm : m ∉ l₁)
    (h : Rearranged (l₁ ++ l₂) cs l') : Rearranged (l₁ ++ m :: l₂) (.remove m :: cs) l'
  | absent {l l' : List ι} {cs : List (Change ι)} {m : ι} (hm : m ∉ l) (h : Rearranged l cs l') :
    Rearranged l (.remove m :: cs) l'

/-- Those that stay keep their order. -/
theorem Rearranged.sublist {l l' : List ι} {cs : List (Change ι)} (h : Rearranged l cs l') :
    l'.Sublist (l ++ Sink.added cs) := by
  induction h with
  | done l => exact List.sublist_append_left _ _
  | @added l l' cs m _ ih =>
    have hadded : Sink.added (.add m :: cs) = m :: Sink.added cs := rfl
    rw [hadded, ← List.singleton_append, ← List.append_assoc]
    exact ih
  | @removed l₁ l₂ l' cs m _ _ ih =>
    refine ih.trans (List.Sublist.append_right ?_ (Sink.added cs))
    exact (List.sublist_cons_self m l₂).append_left l₁
  | absent _ _ ih => exact ih

namespace FanOut

variable [DecidableEq ι]

/-- A fan-out after a change. -/
def change (f : FanOut ι) : Change ι → FanOut ι
  | .add m => f.add m
  | .remove m => (f.remove m).2

/-- A fan-out after several changes. -/
def changes (f : FanOut ι) (cs : List (Change ι)) : FanOut ι := cs.foldl change f

theorem changes_rearranged (cs : List (Change ι)) :
    ∀ f : FanOut ι, Rearranged f.members cs (f.changes cs).members := by
  induction cs with
  | nil =>
    intro f
    exact .done f.members
  | cons c cs ih =>
    intro f
    have hrest := ih (f.change c)
    cases c with
    | add m => exact .added hrest
    | remove m =>
      by_cases hm : m ∈ f.members
      · obtain ⟨l₁, l₂, hl₁, hsplit, herase⟩ := List.exists_erase_eq hm
        have hmembers : (f.change (.remove m)).members = l₁ ++ l₂ := herase
        rw [hmembers] at hrest
        rw [hsplit]
        exact .removed hl₁ hrest
      · have hmembers : (f.change (.remove m)).members = f.members := List.erase_of_not_mem hm
        rw [hmembers] at hrest
        exact .absent hm hrest

end FanOut

/-- **The members of a fan-out do not get in each other's way.** After any changes of its members,
which put new ones last and take out the first of those that are meant: a call that is passed on
comes to every member once, in order and with the same payload, whatever becomes of it at the
others; it ends well if it ends well at every member, and otherwise as at the first member where it
does not, where breaking off counts as a fault with the member's name and the message. -/
theorem fan_out_isolates [DecidableEq ι] [Terminal σ] (near : ι → Destination σ) (f : FanOut ι)
    (cs : List (Change ι)) (c : Call) (s : σ) (h : (f.changes cs).passesOn c) :
    Rearranged f.members cs (f.changes cs).members ∧
    (f.changes cs).members.Sublist (f.members ++ added cs) ∧
    ∃ (xs : List (Turn ι)) (o : Outcome) (g : FanOut ι) (t : σ),
      (f.changes cs).act (fun i => (near i).observed i) c { state := s } = (o, g, ⟨xs, t⟩) ∧
      (f.changes cs).act near c s = (o, g, t) ∧
      xs.map (fun x => (x.member, x.call)) = (f.changes cs).members.map (fun i => (i, c)) ∧
      (o = .ok () ↔ ∀ x ∈ xs, x.outcome = .ok ()) ∧
      ∀ before x after e, xs = before ++ x :: after → (∀ y ∈ before, y.outcome = .ok ()) →
        x.outcome = .error e → o = Outcome.fault (e.contained x.name) := by
  have hchanges := FanOut.changes_rearranged cs f
  obtain ⟨action, closed, hact⟩ := FanOut.act_eq h
  obtain ⟨xs, t, hobserved, hplain, hxs⟩ :=
    FanOut.visit_turns near action c (f.changes cs).members 0 [] s
  refine ⟨hchanges, hchanges.sublist, xs, firstFailure xs, { f.changes cs with closed := closed },
    t, ?_, ?_, hxs, firstFailure_ok xs, ?_⟩
  · rw [hact, hobserved]
    rfl
  · rw [hact, hplain]
  · rintro before x after e rfl hbefore hx
    exact firstFailure_eq hbefore hx

/-- A sink that breaks off when it is written, one that keeps everything, and one that fails. -/
def unevenSinks : Network where
  cells := #[.gone, .breaking ⟨[.write], .message "boom"⟩, .memory {},
    .failing ⟨"failing", "disk on fire", none, false, false⟩ none]
  disk := Disk.fresh "/home" fun _ => default

/-- The member that breaks off comes first; the others are written all the same. -/
theorem fan_out_isolates_uneven :
    ∃ f : FanOut SinkId, f.passesOn (.write ⟨#[7]⟩) ∧
      f = ({ members := [2, 1, 2] } : FanOut SinkId).changes [.add 3, .remove 2] ∧
      ∃ (xs : List (Turn SinkId)) (o : Outcome) (g : FanOut SinkId) (w : Network),
        f.act (Network.destination 1) (.write ⟨#[7]⟩) unevenSinks = (o, g, w) ∧
        xs.map (fun x => (x.member, x.call)) =
          [(1, .write ⟨#[7]⟩), (2, .write ⟨#[7]⟩), (3, .write ⟨#[7]⟩)] ∧
        ¬ (∀ x ∈ xs, x.outcome = .ok ()) ∧
        o = Outcome.fault (.sinkPanicked "panicking" "boom") := by
  obtain ⟨-, -, xs, o, g, w, -, hact, hxs, hok, -⟩ := fan_out_isolates (Network.destination 1)
    { members := [2, 1, 2] } [.add 3, .remove 2] (.write ⟨#[7]⟩) unevenSinks rfl
  have ho : o = Outcome.fault (.sinkPanicked "panicking" "boom") :=
    (congrArg Prod.fst hact).symm
  refine ⟨_, rfl, rfl, xs, o, g, w, hact, hxs, ?_, ho⟩
  rw [← hok, ho]
  simp [Outcome.fault]

end Sink

end Logging
