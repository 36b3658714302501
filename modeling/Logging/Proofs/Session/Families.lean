import Logging.Proofs.Logger.Refusals
import Logging.Proofs.Session.Uses
import Logging.Session.Sinks

/-!
# Families of loggers

The members of a family share a sink. It is closed when one of them is closed or the last of them is
let go, and not before; from then on nothing is written to it.

* `Session.Wired`: every logger writes to the sink of its family.
* `Session.new_wired`, `Session.Wired.addLogger`, `Session.Wired.descends`: **it does from its
  beginning on.**
* `Session.Living`: a family with its sink; `Session.Over`: its sink is over.
* `Session.Living.uses_goesOn`: **until then no sink is closed.**
* `Session.Over.uses`: **what is over stays over.**
* `Session.family_lifecycle`: **the life of a family**, over all sequences of uses.
-/

namespace Logging

open Sink

/-! ## Sinks that are given up -/

/-- The sink was closed, or nobody holds it any more. -/
def Cell.Ended (name : String) (c : Cell) : Prop := c.ClosedAs name ∨ c = .gone

theorem Cell.Ended.becomes {name : String} {c c' : Cell} (h : c.Ended name) (hc : c.Becomes c') :
    c'.Ended name :=
  h.imp (·.becomes hc) hc.gone

namespace Network

variable {w : Network} {x : SinkId} {name : String} {program : List SinkId}

/-- A sink that was closed stays so when holders let go, unless it is given up itself. -/
theorem releaseWithin_ended : ∀ (n : ℕ) (ids : List SinkId) {w : Network},
    (w.cell x).Ended name → ((releaseWithin program n ids w).2.cell x).Ended name := by
  intro n
  induction n with
  | zero => exact fun ids {w} h => h
  | succ n ih =>
    intro ids w h
    cases ids with
    | nil => exact h
    | cons id rest =>
      unfold releaseWithin
      split
      · exact ih rest h
      · refine ih _ ?_
        -- either this is the sink that is given up, or it only evolves
        obtain ⟨-, hcell⟩ | hcell := (w.abandon id).2.cell_set_cases id .gone x
        · exact .inr hcell
        · rw [hcell]
          exact h.becomes ((abandon_evolves id w).becomes x)

end Network

namespace Session

variable {s t : Session} {f : ℕ} {m name sink : String} {l : Logger} {root : SinkId}

/-! ## Families and their sinks -/

/-- **Every logger writes to the sink of its family.** -/
def Wired (s : Session) : Prop :=
  ∀ name l, (name, .logger l) ∈ s.objects → ∃ root format,
    (s.families[l.family]?).map Family.root = some root ∧ l.chain.arrival = .write format root

theorem Wired.descends (hs : s.Wired) (h : Descends s t) : t.Wired := by
  intro name l hl
  obtain ⟨name', l', hl', hfamily, harrival⟩ := h.loggers name l hl
  obtain ⟨root, format, hroot, hwrite⟩ := hs name' l' hl'
  refine ⟨root, format, ?_, harrival.trans hwrite⟩
  rw [hfamily, h.roots, hroot]

theorem Wired.arrival (hs : s.Wired) (hl : (name, .logger l) ∈ s.objects)
    (hroot : (s.families[l.family]?).map Family.root = some root) :
    ∃ format, l.chain.arrival = .write format root := by
  obtain ⟨root', format, hroot', hwrite⟩ := hs name l hl
  obtain rfl : root' = root := Option.some_inj.1 (hroot'.symm.trans hroot)
  exact ⟨format, hwrite⟩

/-- A logger holds the sink of its family. -/
theorem mem_held (hl : (name, .logger l) ∈ s.objects)
    (hroot : (s.families[l.family]?).map Family.root = some root) : root ∈ s.held := by
  refine List.mem_flatMap.2 ⟨_, hl, List.mem_append_right _ ?_⟩
  rw [hroot]
  exact List.mem_singleton_self root

/-- **A family**, with its sink, which is one of the library's own. -/
structure Living (f : ℕ) (root : SinkId) (sink : String) (t : Session) : Prop where
  wired : t.Wired
  family : (t.families[f]?).map Family.root = some root
  /-- As long as there are members, the sink is there. -/
  sink : t.hasFamily f → (t.network.cell root).Provided ∧ (t.network.cell root).name = sink

theorem Descends.hasFamily (h : Descends s t) (ht : t.hasFamily f) : s.hasFamily f := by
  obtain ⟨⟨name, o⟩, he, ho⟩ := List.any_eq_true.1 ht
  cases o with
  | logger l =>
    obtain ⟨name', l', hl', hfamily, -⟩ := h.loggers name l he
    exact hasFamily_of_mem hl' (hfamily.symm.trans (by simpa using ho))
  | _ => cases ho

theorem afterClose_evolves (s : Session) (root : SinkId) :
    Evolves s.network (s.afterClose root) :=
  s.openGates_goesOn.network.evolves.trans (Network.close_evolves _ _)

/-- As long as a member is left, sinks become what they may become. -/
theorem Effect.evolves {closed : Bool} (h : Effect f root s t closed) (ht : t.hasFamily f) :
    Evolves s.network t.network := by
  cases h with
  | goesOn network => exact network.evolves
  | closed network =>
    exact ((s.afterClose_evolves root).trans (Network.settle_goesOn _).evolves).congr network
  | last _ _ _ members => simp [members] at ht

theorem Living.use (h : Living f root sink s) (u : Use) : Living f root sink (s.use f u) := by
  have hdescends := use_descends f s u
  refine ⟨h.wired.descends hdescends, (hdescends.roots f).trans h.family, fun ht => ?_⟩
  have hbecomes := ((use_effect h.family u).evolves ht).becomes root
  obtain ⟨hprovided, hname⟩ := h.sink (hdescends.hasFamily ht)
  exact ⟨hbecomes.provided hprovided, hbecomes.name.trans hname⟩

theorem Living.uses (h : Living f root sink s) (us : List Use) :
    Living f root sink (s.uses f us) :=
  List.foldlRecOn us _ h fun _ h u _ => h.use u

/-- **Until a member is closed or the last one dropped**, members are left and no sink is closed. -/
theorem Living.uses_goesOn : ∀ {us : List Use} {s : Session}, Living f root sink s →
    s.hasFamily f → s.anyCloses f us = false →
      (s.uses f us).hasFamily f ∧ SameClosings s.network (s.uses f us).network := by
  intro us
  induction us with
  | nil => exact fun _ hmembers _ => ⟨hmembers, .refl _⟩
  | cons u us ih =>
    intro s h hmembers hcloses
    obtain ⟨hu, hus⟩ := Bool.or_eq_false_iff.1 hcloses
    have heffect := use_effect h.family u
    rw [hu] at heffect
    cases heffect with
    | goesOn network members =>
      obtain ⟨hleft, hclosings⟩ := ih (h.use u) (members hmembers) hus
      exact ⟨hleft, network.closings.trans hclosings⟩

/-- **The sink of a family is over**: it was closed, or given up after that; and it was not given up
if the program holds it. -/
structure Over (root : SinkId) (sink : String) (t : Session) : Prop where
  ended : (t.network.cell root).Ended sink
  closed : root ∈ t.held → (t.network.cell root).ClosedAs sink

/-- A use that closes the sink. -/
theorem Effect.over (h : Effect f root s t true)
    (hclosed : ((s.afterClose root).cell root).ClosedAs sink) : Over root sink t := by
  have hcell : ∀ {w : Network}, t.network.cells = w.cells → t.network.cell root = w.cell root :=
    fun h => by rw [Network.cell, h, Network.cell]
  cases h with
  | closed network =>
    have hafter := hclosed.becomes ((Network.settle_goesOn _).evolves.becomes root)
    rw [← hcell network] at hafter
    exact ⟨.inl hafter, fun _ => hafter⟩
  | last lines ids network _ =>
    have hreported : ((((s.afterClose root).reportAll lines)).cell root).ClosedAs
        sink := by
      rwa [Network.cell, Network.reportAll_cells]
    have hsettled := (Network.settle_goesOn ((((s.afterClose root).reportAll
      lines).release t.held ids).2)).evolves.becomes root
    rw [← hcell network] at hsettled
    exact ⟨(Network.releaseWithin_ended _ ids (.inl hreported)).becomes hsettled, fun hheld =>
      (Network.releaseWithin_closed hheld _ ids hreported).becomes hsettled⟩

/-- **What is over stays over.** -/
theorem Over.use (h : Over root sink s) (hlive : Living f root sink s) (u : Use) :
    Over root sink (s.use f u) := by
  cases hl : s.member? f u.member with
  | none =>
    have hsame : s.use f u = s := by simp only [Session.use, hl]
    rwa [hsame]
  | some l =>
    obtain ⟨hlogger, rfl⟩ := member?_eq_some.1 hl
    -- a member holds the sink, so it was closed and is still there
    have hclosed := h.closed (mem_held (mem_of_logger? hlogger) hlive.family)
    have heffect := use_effect hlive.family u
    cases hcloses : s.closes l.family u with
    | false =>
      rw [hcloses] at heffect
      cases heffect with
      | goesOn network _ =>
        have hafter := hclosed.becomes (network.evolves.becomes root)
        exact ⟨.inl hafter, fun _ => hafter⟩
    | true =>
      rw [hcloses] at heffect
      exact heffect.over (hclosed.becomes ((s.afterClose_evolves root).becomes root))

theorem Over.uses : ∀ (us : List Use) {s : Session}, Over root sink s → Living f root sink s →
    Over root sink (s.uses f us) := by
  intro us
  induction us with
  | nil => exact fun {s} h _ => h
  | cons u us ih => exact fun {s} h hlive => ih (h.use hlive u) (hlive.use u)

/-! ## Where families come from -/

theorem new_wired (home : String) (clock : ℕ → Time.Reading) (draws : Draws) :
    (new home clock draws).Wired :=
  fun _ _ h => by cases h

/-- A new sink begins no family. -/
theorem Wired.addSink (hs : s.Wired) (name : String)
    (make : Network → Except Failure SinkId × Network) : (s.addSink name make).2.Wired := by
  have hacted := hs.descends (act_same make s).descends
  unfold Session.addSink
  generalize s.act make = acted at *
  obtain ⟨e | id, v⟩ := acted
  · exact hacted
  · intro name' l hl
    obtain hl | hl := List.mem_append.1 hl
    · exact hacted name' l hl
    · cases List.mem_singleton.1 hl

theorem build_arrival {p : LoggerPlan} {program : List SinkId} {st : Stages} {w : Network}
    {chain : Chain} (h : (p.build program st w).1 = .ok (root, chain)) :
    chain.arrival = .write p.format root := by
  unfold LoggerPlan.build at h
  split at h
  · cases h
  · cases h
    rfl

theorem Wired.begin (hs : s.Wired) {family : Family} {format : Line.Format} (name : String)
    (hl : l.family = s.families.size) (hwrite : l.chain.arrival = .write format family.root) :
    ({ s with families := s.families.push family }.put name (.logger l)).Wired := by
  intro name' k hk
  obtain hk | hk := List.mem_append.1 hk
  · obtain ⟨root, format, hroot, hwrite⟩ := hs name' k hk
    refine ⟨root, format, ?_, hwrite⟩
    have hlt : k.family < s.families.size := by
      obtain ⟨_, hfamily, -⟩ := Option.map_eq_some_iff.1 hroot
      exact (Array.getElem?_eq_some_iff.1 hfamily).1
    show ((s.families.push family)[k.family]?).map Family.root = some root
    rwa [Array.getElem?_push_lt hlt, ← Array.getElem?_eq_getElem hlt]
  · cases List.mem_singleton.1 hk
    refine ⟨family.root, format, ?_, hwrite⟩
    show ((s.families.push family)[l.family]?).map Family.root = some family.root
    rw [hl, Array.getElem?_push_size]
    rfl

/-- **A new logger begins a family**, and the others stay in theirs. -/
theorem Wired.addLogger (hs : s.Wired) (name : String) (p : LoggerPlan) :
    (s.addLogger name p).2.Wired := by
  have hacted := hs.descends (actWithStages_same (p.build s.held) s).descends
  have hchain : ∀ {root chain}, (s.actWithStages (p.build s.held)).1 = .ok (root, chain) →
      chain.arrival = .write p.format root := build_arrival
  unfold Session.addLogger
  generalize s.actWithStages (p.build s.held) = acted at *
  obtain ⟨e | ⟨root, chain⟩, v⟩ := acted
  · exact hacted
  · exact hacted.begin name rfl (hchain rfl)

/-! ## The life of a family -/

theorem closes_member {u : Use} (h : s.closes f u = true) :
    ∃ l, s.member? f u.member = some l := by
  unfold closes at h
  cases hl : s.member? f u.member with
  | none => simp [hl] at h
  | some l => exact ⟨l, rfl⟩

/-- A use that closes the sink of a family closes one of the library's own. -/
theorem Living.closes (h : Living f root sink s) {u : Use} (hu : s.closes f u = true) :
    ((s.afterClose root).cell root).ClosedAs sink := by
  obtain ⟨l, hl⟩ := closes_member hu
  obtain ⟨hlogger, hfamily⟩ := member?_eq_some.1 hl
  obtain ⟨hprovided, rfl⟩ := h.sink (hasFamily_of_mem (mem_of_logger? hlogger) hfamily)
  have hopened := s.openGates_goesOn.network.evolves.becomes root
  have hclosed := Network.close_closes (hopened.provided hprovided)
  rwa [hopened.name] at hclosed

/-- When the sink of a family is over, its members are refused. -/
theorem Over.isRefused (h : Over root sink s) (hlive : Living f root sink s)
    (hl : s.member? f m = some l) : l.IsRefused sink s.stages s.network := by
  obtain ⟨hlogger, rfl⟩ := member?_eq_some.1 hl
  have hmem := mem_of_logger? hlogger
  obtain ⟨format, hwrite⟩ := hlive.wired.arrival hmem hlive.family
  exact Logger.isRefused_of_closed hwrite (h.closed (mem_held hmem hlive.family)) s.stages

/-- **The life of a family.** Whatever is done with its members, no sink is closed until a member is
closed or the last one is dropped. Such a use closes the sink of the family; and whatever is done
after it, the sink is over and every member is refused. -/
theorem family_lifecycle (hs : s.Wired) (hl : s.logger? name = some l)
    (hsink : (s.network.cell (s.rootSink l)).Provided) (before : List Use) :
    let root := s.rootSink l
    let sink := (s.network.cell root).name
    let t := s.uses l.family before
    (s.anyCloses l.family before = false →
        t.hasFamily l.family ∧ SameClosings s.network t.openGates.network) ∧
      ∀ u, t.closes l.family u = true →
        Effect l.family root t (t.use l.family u) true ∧
          ((t.afterClose root).cell root).ClosedAs sink ∧
            ∀ after, let v := (t.use l.family u).uses l.family after
              Over root sink v ∧ ∀ m k, v.member? l.family m = some k →
                k.IsRefused sink v.stages v.network := by
  intro root sink t
  have hmem := mem_of_logger? hl
  obtain ⟨root', format, hroot, -⟩ := hs name l hmem
  obtain rfl : root = root' := rootSink_eq hroot
  have hstart : Living l.family root sink s := ⟨hs, hroot, fun _ => ⟨hsink, rfl⟩⟩
  have hmembers := hasFamily_of_mem hmem rfl
  have hlive := hstart.uses before
  refine ⟨fun hcloses => ?_, fun u hu => ?_⟩
  · obtain ⟨hleft, hclosings⟩ := hstart.uses_goesOn hmembers hcloses
    exact ⟨hleft, hclosings.trans t.openGates_goesOn.network.closings⟩
  · have heffect : Effect l.family root t (t.use l.family u) true := hu ▸ use_effect hlive.family u
    have hclosed := hlive.closes hu
    refine ⟨heffect, hclosed, fun after => ?_⟩
    have hover := (heffect.over hclosed).uses after (hlive.use u)
    exact ⟨hover, fun m k hk => hover.isRefused ((hlive.use u).uses after) hk⟩

/-- A program with a memory sink. -/
def atHand : Session := ((new "/" (fun _ => default) fun _ _ => default).addCell "m" (.memory {})).2

/-- A logger with a queue and a buffer in front of the memory sink. -/
def queuedFamily : Session :=
  (atHand.addLogger "a"
    { sinks := [0], buffer := some { threshold := 64 }, asyncCapacity := some 4 }).2

theorem family_lifecycle_queued :
    let l : Logger :=
      { chain := { stages := [0, 1], arrival := .write .default 2 }, family := 0, lowest := .info }
    let s := queuedFamily
    let before := [.clone "a" "b", .log "b" .info "heard", .withGroup "b" "c" "g", .drop "a"]
    let t := s.uses 0 before
    let v := (t.use 0 (.close "c")).uses 0 [.drop "b", .log "c" .info "late"]
    s.Wired ∧ s.logger? "a" = some l ∧ (s.network.cell (s.rootSink l)).Provided ∧
      s.anyCloses 0 before = false ∧ t.hasFamily 0 ∧
      SameClosings s.network t.openGates.network ∧ t.closes 0 (.close "c") = true ∧
      ((t.afterClose 2).cell 2).ClosedAs "async" ∧ Over 2 "async" v ∧
      ∀ m k, v.member? 0 m = some k → k.IsRefused "async" v.stages v.network := by
  intro l s before t v
  have hs : s.Wired := ((new_wired "/" _ _).addSink "m" _).addLogger "a" _
  have hl : s.logger? "a" = some l := rfl
  have hsink : (s.network.cell (s.rootSink l)).Provided := trivial
  have hopen : s.anyCloses 0 before = false := by decide
  have hclose : t.closes 0 (.close "c") = true := by decide
  obtain ⟨hbefore, hafter⟩ := family_lifecycle hs hl hsink before
  obtain ⟨-, hclosed, hlate⟩ := hafter (.close "c") hclose
  exact ⟨hs, hl, hsink, hopen, (hbefore hopen).1, (hbefore hopen).2, hclose, hclosed, hlate _⟩

/-- Not every record that a closed sink refuses is reported: a function of the program may make
every end a good one. -/
theorem refusal_swallowed :
    let lenient : Custom := { act := fun c r => .call c r fun _ => .answer (.ok ()) }
    let s := ((atHand.addStage "w" (.custom lenient)).addLogger "a" { sinks := [0], stages := [0] }).2
    let t := s.use 0 (.close "a")
    let r : Record := .new .info "late"
    s.closes 0 (.close "a") = true ∧
      ∃ l, t.member? 0 "a" = some l ∧
        l.arrivals t.draws (closedOutcome "memory") .empty r t.stages = [r] ∧
        (l.logWith t.draws .empty r t.stages t.network).1 = .ok () ∧
        closedOutcome "memory" ≠ .ok () := by
  refine ⟨by decide, _, rfl, rfl, ?_, nofun⟩
  decide +kernel

end Session

end Logging
