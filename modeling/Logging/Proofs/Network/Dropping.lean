import Logging.Proofs.Network.GivingUp
import Logging.Proofs.Network.Recasting

/-!
# What becomes of the ends of a tree that is given up

A sink that is given up lets go of those behind it. Buffers and queues close them before, and
fan-outs do not.

* `Tree.acts_alike`: a run of a tree does the same where the cast is another.
* `Tree.bare`: the sinks at the ends with nothing but fan-outs in front of them.
* `Tree.giveUp_drops`: **giving up a tree closes every other sink at its ends, after its data**, and
  does the same where the cast is another.
-/

namespace Logging

open Sink Worker

variable {w₀ w v v' : Network} {id x n : ℕ} {program : List ℕ}

namespace Network

theorem recast_queued {c₀ c : Cell} {q : Queue} {inner : SinkId}
    (h : c₀.recast c = .queued q inner) : ∃ q', c = .queued q' inner := by
  cases c with
  | queued q' inner' =>
    cases h
    exact ⟨q', rfl⟩
  | scripted s =>
    unfold Cell.recast at h
    dsimp only at h
    split at h <;> cases h
  | _ => cases h

theorem recast_buffered {c₀ c : Cell} {buf : Buffer} {inner : SinkId}
    (h : c₀.recast c = .buffered buf inner) : c = .buffered buf inner := by
  cases c with
  | buffered buf' inner' => exact h
  | scripted s =>
    unfold Cell.recast at h
    dsimp only at h
    split at h <;> cases h
  | _ => cases h

end Network

namespace Tree

variable {t u : Tree} {ts : List Tree}

/-! ## The background -/

theorem Tame.behind (h : t.Tame w₀ v) (hu : Behind t v id u) : u.Tame w₀ v :=
  ⟨hu.isOpen, fun x hx => h.docile x (hu.ends hx)⟩

/-- **A step of a worker does the same where the cast is another.** -/
theorem deliver_alike (hp : t.Placed v) (h : t.Tame w₀ v) (id : ℕ) :
    (w₀.recast v).deliver? id = (v.deliver? id).map w₀.recast := by
  by_cases hqueue : ∃ q inner, v.cell id = .queued q inner
  swap
  · have hother : ∀ q inner, v.cell id ≠ .queued q inner := fun q inner hc => hqueue ⟨q, inner, hc⟩
    rw [Network.deliver?_other hother, Network.deliver?_other fun q inner hc => ?_]
    · rfl
    · rw [Network.recast_cell] at hc
      obtain ⟨q', hq'⟩ := Network.recast_queued hc
      exact hother _ _ hq'
  obtain ⟨q, inner, hcell⟩ := hqueue
  obtain ⟨u, -, rfl, hq, hbehind⟩ := hp.queue_open h.isOpen hcell
  have htame := h.behind hbehind
  have hrecast : (w₀.recast v).cell id = .queued (q.under (w₀.cell id).policy) u.id := by
    simp [hcell, Cell.recast]
  have hstep := Machine.step_under
    (htame.smooth hbehind.known hbehind.ordered hbehind.distinct q.machine)
    (fun k v => Network.recast_finish _ k) (w₀.cell id).policy
  cases hs : q.machine.step (Network.work (Network.destination v.cells.size u.id)) v with
  | none =>
    rw [hs] at hstep
    have hmachine : (q.under (w₀.cell id).policy).machine.step
        (Network.work (Network.destination v.cells.size u.id)) (w₀.recast v) = none := hstep
    have hpaused : (w₀.recast v).paused = [] := hp.paused
    simp [Network.deliver?, hcell, hrecast, hp.paused, hpaused, Network.near, hs, hmachine]
  | some r =>
    obtain ⟨m, v'⟩ := r
    rw [hs] at hstep
    obtain ⟨-, ha, -, -⟩ := step_conveys hbehind.known hbehind.ordered hbehind.distinct htame.isOpen
      hq.policy hs
    have hblocked : v'.blocked = false := ha.blocked.trans hp.blocked
    have hmachine : (q.under (w₀.cell id).policy).machine.step
        (Network.work (Network.destination (w₀.recast v).cells.size u.id)) (w₀.recast v) =
          some (m.under (w₀.cell id).policy, w₀.recast v') := by
      rw [Network.recast_size]
      exact hstep
    rw [Network.deliver?_step hcell hp.paused hs hblocked,
      Network.deliver?_step hrecast hp.paused hmachine hblocked, Option.map_some,
      Network.recast_set]
    rfl

/-- **The waiting time of a buffer ends, and the same is done where the cast is another.** -/
theorem expire_alike (hp : t.Placed v) (h : t.Tame w₀ v) (id : ℕ) :
    (w₀.recast v).expire id = w₀.recast (v.expire id) := by
  by_cases hbuffer : ∃ buf inner, v.cell id = .buffered buf inner
  swap
  · have hother : ∀ buf inner, v.cell id ≠ .buffered buf inner :=
      fun buf inner hc => hbuffer ⟨buf, inner, hc⟩
    rw [Network.expire_other hother, Network.expire_other fun buf inner hc => ?_]
    rw [Network.recast_cell] at hc
    exact hother _ _ (Network.recast_buffered hc)
  obtain ⟨buf, inner, hcell⟩ := hbuffer
  obtain ⟨u, -, rfl, -, hbehind⟩ := hp.buffer_open h.isOpen hcell
  have hinner := fun p => write_alike w₀ u p hbehind.known hbehind.ordered hbehind.distinct
    (tame_background true (h.behind hbehind))
  have hexpire := Buffer.expire_map (fun p => (hinner p).2)
    (Buffer.pass_ok (fun p => (hinner p).1) buf)
  have hrecast : (w₀.recast v).cell id = .buffered buf u.id := by simp [hcell, Cell.recast]
  have hbackground : ({ w₀.recast v with background := true } : Network) =
      w₀.recast { v with background := true } := rfl
  unfold Network.expire
  rw [hrecast, hcell]
  dsimp only [Network.inBackground, Network.near]
  rw [hbackground, Network.recast_size, hexpire, Network.recast_set]
  rfl

/-! ## Runs -/

/-- **An act does the same where the cast is another**, and the ends go on answering well. -/
theorem act_alike (hp : t.Placed v) (h : t.Tame w₀ v) (a : Network.Act) :
    (w₀.recast v).act t.id a = w₀.recast (v.act t.id a) ∧ t.Tame w₀ (v.act t.id a) := by
  have hopen := (act_conveys hp h.isOpen a).1.isOpen
  cases a with
  | write p =>
    have halike := write_alike w₀ t p hp.known hp.ordered hp.distinct h
    refine ⟨?_, h.next hopen (Network.write_evolves t.id p v)⟩
    simpa [Network.act, Network.write, Network.near] using congrArg Prod.snd halike.2
  | flush =>
    have halike := flush_alike w₀ t hp.known hp.ordered hp.distinct h
    refine ⟨?_, h.next hopen (Network.flush_evolves t.id v)⟩
    simpa [Network.act, Network.flush, Network.near] using congrArg Prod.snd halike.2
  | deliver id =>
    have halike := deliver_alike hp h id
    cases hs : v.deliver? id with
    | none => simpa [Network.act, halike, hs] using h
    | some v' =>
      have hact : v.act t.id (.deliver id) = v' := by simp [Network.act, hs]
      rw [hact] at hopen ⊢
      exact ⟨by simp [Network.act, halike, hs], h.next hopen (Network.deliver?_evolves hs)⟩
  | expire id => exact ⟨expire_alike hp h id, h.next hopen (Network.expire_evolves id v)⟩

/-- **A run does the same where the cast is another.** -/
theorem acts_alike (as : List Network.Act) : ∀ {v : Network}, t.Placed v → t.Tame w₀ v →
    (w₀.recast v).acts t.id as = w₀.recast (v.acts t.id as) ∧ t.Tame w₀ (v.acts t.id as) := by
  induction as with
  | nil => exact fun {v} _ h => ⟨rfl, h⟩
  | cons a as ih =>
    intro v hp h
    obtain ⟨heq, htame⟩ := act_alike hp h a
    have ha := (act_conveys hp h.isOpen a).2
    have hp' := hp.alters (ha.mono (List.Subset.refl _) (List.nil_subset _))
    have hrest := ih hp' htame
    rwa [← heq] at hrest

end Tree

/-! ## Giving up -/

theorem Cell.recast_spent {c₀ c : Cell} (h : c.Spent) : (c₀.recast c).Spent := by
  cases c with
  | scripted s => exact h.elim
  | _ => exact h

namespace Network

/-- A sink that does nothing when it is given up is gone. -/
theorem letGo_spent (h : (v.cell id).Spent) : v.letGo id = v.set id .gone := by
  unfold letGo
  rw [abandon_spent h]

/-- Letting go of a sink does the same where the cast is another. -/
theorem recast_letGo
    (h : (w₀.recast v).abandon id = ((v.abandon id).1, w₀.recast (v.abandon id).2)) :
    (w₀.recast v).letGo id = w₀.recast (v.letGo id) := by
  unfold letGo
  rw [h, recast_set]
  rfl

theorem recast_spent (h : (v.cell id).Spent) : (w₀.recast v).letGo id = w₀.recast (v.letGo id) := by
  have h' : ((w₀.recast v).cell id).Spent := by
    rw [recast_cell]
    exact Cell.recast_spent h
  exact recast_letGo (by rw [abandon_spent h, abandon_spent h'])

/-- Several sinks that do nothing when they are given up. -/
theorem foldl_letGo_spent (w₀ : Network) {ds : List ℕ} :
    ∀ {v : Network}, (∀ x ∈ ds, (v.cell x).Spent) →
    ds.foldl letGo (w₀.recast v) = w₀.recast (ds.foldl letGo v) ∧
      Alters ds [] v (ds.foldl letGo v) := by
  induction ds with
  | nil => exact fun {v} _ => ⟨rfl, .refl _ _ v⟩
  | cons d ds ih =>
    intro v h
    have hd := h d List.mem_cons_self
    have hset := letGo_spent hd
    -- the others still do nothing
    have hrest : ∀ x ∈ ds, ((v.letGo d).cell x).Spent := by
      intro x hx
      rw [hset]
      by_cases hxd : x = d
      · subst hxd
        rw [cell_set_gone]
        trivial
      · rw [(alters_set d .gone [] v).cells x (by simpa using hxd)]
        exact h x (.tail _ hx)
    obtain ⟨heq, ha⟩ := ih hrest
    have hfirst : Alters (d :: ds) [] v (v.letGo d) := by
      rw [hset]
      exact (Alters.refl _ _ v).set List.mem_cons_self _
    rw [List.foldl_cons, List.foldl_cons, recast_spent hd]
    exact ⟨heq, hfirst.trans (ha.mono (List.subset_cons_self d ds) (List.Subset.refl _))⟩

end Network

namespace Tree

variable {t u : Tree} {ts : List Tree}

/-- The sinks at the ends with nothing but fan-outs in front of them. -/
def bare : Tree → List ℕ
  | leaf id _ => [id]
  | buffered _ _ => []
  | queued _ _ => []
  | fanOut _ ts => ts.flatMap fun t => t.bare

theorem bare_subset : ∀ t : Tree, t.bare ⊆ t.ends := by
  refine induction ?_ ?_ ?_ ?_
  · intro id l
    simp [bare]
  · intro id t _
    simp [bare]
  · intro id t _
    simp [bare]
  · intro id ts ih x hx
    simp only [bare, ends_fanOut, List.mem_flatMap] at hx ⊢
    obtain ⟨t, ht, hx⟩ := hx
    exact ⟨t, ht, ih t ht hx⟩

/-- What stands in front of a sink behind a fan-out stands in its own member. -/
theorem mem_bare_fanOut (hapart : ts.Pairwise Apart) (ht : t ∈ ts) (hx : x ∈ t.ends) :
    x ∈ (fanOut id ts).bare ↔ x ∈ t.bare := by
  simp only [bare, List.mem_flatMap]
  constructor
  · rintro ⟨u, hu, hxu⟩
    by_cases hut : u = t
    · exact hut ▸ hxu
    · have hnot := (apart_of_ne hapart hu ht hut).1 x (u.ends_subset (u.bare_subset hxu))
      exact absurd (t.ends_subset hx) hnot
  · exact fun hxt => ⟨t, ht, hxt⟩

/-- No sink at an end passes on to others. -/
theorem Distinct.notMem_decorators : ∀ {t : Tree}, t.Distinct → x ∈ t.ends → x ∉ t.decorators := by
  refine @induction _ ?_ ?_ ?_ ?_
  · intro id l _ _
    simp [decorators]
  · intro id t ih h hx
    rw [ends_buffered] at hx
    have hne : x ≠ id := fun he => h.buffered.1 (he ▸ t.ends_subset hx)
    simpa [decorators, hne] using ih h.buffered.2 hx
  · intro id t ih h hx
    rw [ends_queued] at hx
    have hne : x ≠ id := fun he => h.queued.1 (he ▸ t.ends_subset hx)
    simpa [decorators, hne] using ih h.queued.2 hx
  · intro id ts ih h hx
    obtain ⟨hdts, hapart⟩ := h.fanOut
    rw [ends_fanOut, List.mem_flatMap] at hx
    obtain ⟨t, ht, hx⟩ := hx
    have hne : x ≠ id := fun he => (hdts t ht).1 (he ▸ t.ends_subset hx)
    simp only [decorators, List.mem_cons, hne, false_or, List.mem_flatMap, not_exists, not_and]
    intro u hu hxu
    by_cases hut : u = t
    · subst hut
      exact ih u ht (hdts u ht).2 hx hxu
    · exact (apart_of_ne hapart hu ht hut).1 x (u.decorators_subset hxu) (t.ends_subset hx)

theorem Shut.spent_decorators (h : t.Shut v) (hd : t.Distinct) : ∀ x ∈ t.decorators,
    (v.cell x).Spent := by
  intro x hx
  have hnot : x ∉ t.ends := fun he => hd.notMem_decorators he hx
  exact (h.spent (List.Subset.refl _) x (t.decorators_subset hx) hnot).1

/-- **A tree that is given up** hands on what waits in it. Its ends are closed then, but for those
with nothing but fan-outs in front of them. -/
def Leaves (t : Tree) (v v' : Network) : Prop :=
  ∀ x ∈ t.ends, ∃ news closing, v'.calls x = v.calls x ++ news ++ closing ∧
    (∀ c ∈ news, c.1 ≠ .close) ∧ Carries (offered news) (t.held x v) ∧
    closing.map Prod.fst = if x ∈ t.bare then [] else [.close]

theorem Leaves.congr {w w' : Network} (h : t.Leaves v v') (hv : t.Agrees v w)
    (hv' : t.Agrees v' w') : t.Leaves w w' := by
  intro x hx
  rw [hv.calls (t.ends_subset hx), hv'.calls (t.ends_subset hx), hv.held]
  exact h x hx

/-- Giving up the tree does the same where the cast is another. -/
structure GivesUp (w₀ : Network) (t : Tree) (v : Network) : Prop where
  alike : t.giveUp (w₀.recast v) = w₀.recast (t.giveUp v)
  alters : Alters t.ids [] v (t.giveUp v)
  leaves : t.Leaves v (t.giveUp v)

/-- The sink behind a buffer or a queue that was given up was closed by it. -/
theorem givesUp_behind {o : Outcome} (hd : t.Distinct) (hid : id ∉ t.ids)
    (h : t.Ends (v.pieces id) o v (v.abandon id).2) (ha : Alters t.ids [] v (v.abandon id).2)
    (heq : (w₀.recast v).abandon id = ((v.abandon id).1, w₀.recast (v.abandon id).2)) :
    t.giveUp ((w₀.recast v).letGo id) = w₀.recast (t.giveUp (v.letGo id)) ∧
      Alters (id :: t.ids) [] v (t.giveUp (v.letGo id)) ∧
      ∀ x ∈ t.ends, ∃ news closing, (t.giveUp (v.letGo id)).calls x = v.calls x ++ news ++ closing ∧
        (∀ c ∈ news, c.1 ≠ .close) ∧ Carries (offered news) (t.held x v ++ v.pieces id) ∧
        closing.map Prod.fst = [.close] := by
  have hshut : t.Shut (v.letGo id) := (h.set hid .gone).shut
  obtain ⟨hsame, hrest⟩ := Network.foldl_letGo_spent w₀ (hshut.spent_decorators hd)
  have hfirst : Alters (id :: t.ids) [] v (v.letGo id) :=
    (ha.mono (List.subset_cons_self id _) (List.Subset.refl _)).set List.mem_cons_self _
  refine ⟨?_, hfirst.trans (hrest.mono (List.Subset.trans t.decorators_subset
    (List.subset_cons_self id _)) (List.Subset.refl _)), fun x hx => ?_⟩
  · rw [Network.recast_letGo heq]
    exact hsame
  · obtain ⟨news, res, hcalls, hnews, hcarries, -⟩ := (h.set hid .gone).calls x hx
    refine ⟨news, [(.close, res)], ?_, hnews, hcarries, rfl⟩
    rw [← hcalls]
    unfold Network.calls
    rw [show (t.giveUp (v.letGo id)).cell x = _ from
      hrest.cells x (hd.notMem_decorators hx)]
    rfl

/-- Giving up the tree, whatever stands around it. -/
def Drops (w₀ : Network) (t : Tree) : Prop :=
  ∀ {v : Network}, t.id < v.cells.size → t.Ordered → t.Distinct → t.Tame w₀ v → t.GivesUp w₀ v

theorem drops_leaf (id : ℕ) (l : Leaf) : (leaf id l).Drops w₀ := by
  intro v _ _ _ _
  refine ⟨by simp, by simpa using Alters.refl _ _ v, fun x hx => ⟨[], [], by simp, by simp, ?_, ?_⟩⟩
  · simpa [held] using Carries.refl []
  · simpa [bare] using hx

theorem drops_buffered (id : ℕ) (t : Tree) : (buffered id t).Drops w₀ := by
  intro v hknown ho hd h
  obtain ⟨buf, hcell, hopen, ht⟩ := h.buffered
  simp only [Ordered, id_buffered] at ho hknown
  have hdt := hd.buffered
  have hn : t.id < v.cells.size := by omega
  obtain ⟨o, hends, ha⟩ := abandonBuffer_ends hcell hopen hn ho.2 hdt.2 ht.isOpen
  have hclose := closeBuffer_alike (close_alike w₀ t) hn ho.2 hdt.2 ht buf
  have heq : (w₀.recast v).abandon id = ((v.abandon id).1, w₀.recast (v.abandon id).2) := by
    have hrecast : (w₀.recast v).cell id = .buffered buf t.id := by simp [hcell, Cell.recast]
    simp [Network.abandon, hcell, hrecast, Network.near,
      Buffer.abandon_map (fun _ _ => rfl) hclose]
  have hpieces : v.pieces id = [buf.pending] := by simp [Network.pieces, hcell]
  obtain ⟨hsame, halters, hleaves⟩ := givesUp_behind hdt.2 hdt.1 (hpieces ▸ hends) ha heq
  refine ⟨by simpa using hsame, by simpa [ids] using halters, fun x hx => ?_⟩
  rw [ends_buffered] at hx
  simpa [held, hx, bare] using hleaves x hx

theorem drops_queued (id : ℕ) (t : Tree) : (queued id t).Drops w₀ := by
  intro v hknown ho hd h
  obtain ⟨q, hcell, hq, ht⟩ := h.queued
  simp only [Ordered, id_queued] at ho hknown
  have hdt := hd.queued
  have hn : t.id < v.cells.size := by omega
  obtain ⟨o, hends, ha⟩ := abandonQueue_ends hcell hq hn ho.2 hdt.2 ht.isOpen
  have hclose := closeQueue_alike (close_alike w₀ t) hn ho.2 hdt.2 ht hq (w₀.cell id).policy
  have heq : (w₀.recast v).abandon id = ((v.abandon id).1, w₀.recast (v.abandon id).2) := by
    have hrecast : (w₀.recast v).cell id = .queued (q.under (w₀.cell id).policy) t.id := by
      simp [hcell, Cell.recast]
    simp [Network.abandon, hcell, hrecast, Network.near,
      Queue.abandon_under (fun _ _ => rfl) hclose]
  have hpieces : v.pieces id = q.machine.waiting := by simp [Network.pieces, hcell]
  obtain ⟨hsame, halters, hleaves⟩ := givesUp_behind hdt.2 hdt.1 (hpieces ▸ hends) ha heq
  refine ⟨by simpa using hsame, by simpa [ids] using halters, fun x hx => ?_⟩
  rw [ends_queued] at hx
  simpa [held, hx, bare] using hleaves x hx

/-- Several trees are given up, one after the other. -/
theorem drops_members : ∀ {ts : List Tree} {v : Network}, (∀ t ∈ ts, t.Drops w₀) →
    (∀ t ∈ ts, t.id < v.cells.size ∧ t.Ordered ∧ t.Distinct ∧ t.Tame w₀ v) → ts.Pairwise Apart →
    ts.foldl (fun v t => t.giveUp v) (w₀.recast v) =
        w₀.recast (ts.foldl (fun v t => t.giveUp v) v) ∧
      Alters (ts.flatMap Tree.ids) [] v (ts.foldl (fun v t => t.giveUp v) v) ∧
      ∀ t ∈ ts, t.Leaves v (ts.foldl (fun v t => t.giveUp v) v) := by
  intro ts
  induction ts with
  | nil => exact fun {v} _ _ _ => ⟨rfl, .refl _ _ v, by simp⟩
  | cons t ts ih =>
    intro v hdrops h hapart
    obtain ⟨hfirst, hapart⟩ := List.pairwise_cons.1 hapart
    obtain ⟨hn, ho, hd, ht⟩ := h t List.mem_cons_self
    obtain ⟨halike, ha, hleaves⟩ := hdrops t List.mem_cons_self hn ho hd ht
    -- the others are as they were
    have hagrees : ∀ u ∈ ts, u.Agrees v (t.giveUp v) := fun u hu =>
      .of_alters ha (fun x hx hx' => (hfirst u hu).1 x hx' hx) fun _ _ => List.not_mem_nil
    have hothers : ∀ u ∈ ts, u.id < (t.giveUp v).cells.size ∧ u.Ordered ∧ u.Distinct ∧
        u.Tame w₀ (t.giveUp v) := fun u hu => by
      obtain ⟨hn, ho, hd, hu'⟩ := h u (.tail _ hu)
      exact ⟨ha.size ▸ hn, ho, hd, hu'.congr (hagrees u hu)⟩
    obtain ⟨halike', ha', hleaves'⟩ := ih (fun u hu => hdrops u (.tail _ hu)) hothers hapart
    -- and so is this one afterwards
    have hself : t.Agrees (t.giveUp v) (ts.foldl (fun v t => t.giveUp v) (t.giveUp v)) := by
      refine .of_alters ha' (fun x hx hx' => ?_) fun _ _ => List.not_mem_nil
      obtain ⟨u, hu, hx'⟩ := List.mem_flatMap.1 hx'
      exact (hfirst u hu).1 x hx hx'
    rw [List.foldl_cons, List.foldl_cons, halike]
    refine ⟨halike', ?_, fun u hu => ?_⟩
    · exact (ha.mono (List.subset_append_left _ _) (List.Subset.refl _)).trans
        (ha'.mono (List.subset_append_right _ _) (List.Subset.refl _))
    · rcases List.mem_cons.1 hu with rfl | hu
      · exact hleaves.congr (.refl u v) hself
      · exact (hleaves' u hu).congr (hagrees u hu).symm (.refl u _)

/-- A fan-out does nothing when it is given up, and lets go of its members. -/
theorem drops_fanOut (ih : ∀ t ∈ ts, t.Drops w₀) (id : ℕ) : (fanOut id ts).Drops w₀ := by
  intro v hknown ho hd h
  obtain ⟨f, hcell, -, -, hts⟩ := h.fanOut
  simp only [Ordered, id_fanOut] at ho hknown
  obtain ⟨hdts, hapart⟩ := hd.fanOut
  have hspent : (v.cell id).Spent := by
    rw [hcell]
    trivial
  have hset := Network.letGo_spent hspent
  have hgone : Alters [id] [] v (v.letGo id) := hset ▸ Network.alters_set id .gone [] v
  have hagrees : ∀ t ∈ ts, t.Agrees v (v.letGo id) := fun t ht =>
    hset ▸ agrees_set (hdts t ht).1 .gone v
  obtain ⟨halike, ha, hleaves⟩ := drops_members ih
    (fun t ht => ⟨hgone.size ▸ (ho t ht).1.trans hknown, (ho t ht).2, (hdts t ht).2,
      (hts t ht).congr (hagrees t ht)⟩) hapart
  refine ⟨?_, ?_, fun x hx => ?_⟩
  · rw [giveUp_fanOut, giveUp_fanOut, Network.recast_spent hspent, halike]
  · rw [giveUp_fanOut]
    exact (hgone.mono (by simp [ids]) (List.Subset.refl _)).trans
      (ha.mono (by simp [ids]) (List.Subset.refl _))
  · rw [ends_fanOut, List.mem_flatMap] at hx
    obtain ⟨t, ht, hx⟩ := hx
    obtain ⟨news, closing, hcalls, hnews, hcarries, hclosing⟩ :=
      (hleaves t ht).congr (hagrees t ht).symm (.refl t _) x hx
    refine ⟨news, closing, by rw [giveUp_fanOut]; exact hcalls, hnews, ?_, ?_⟩
    · rw [held_fanOut hapart ht hx]
      exact hcarries
    · simpa only [mem_bare_fanOut hapart ht hx] using hclosing

/-- **Giving up a tree closes every end that stands behind a buffer or a queue**, after its data,
and does the same where the cast is another. -/
theorem giveUp_drops (w₀ : Network) (t : Tree) : t.Drops w₀ :=
  induction (P := Drops w₀) drops_leaf (fun id t _ => drops_buffered id t)
    (fun id t _ => drops_queued id t) (fun id _ ih => drops_fanOut ih id) t

end Tree

end Logging
