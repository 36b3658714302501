import Logging.Proofs.Middleware.Alongside
import Logging.Proofs.Session.Resting

/-!
# Uses of a family of loggers

The loggers that were derived from one another are a family. A program clones and derives them, logs
with them, closes them and lets them go, and knows them by name.

* `Session.Use`: what a program does with a member of a family.
* `Session.closes`: whether a use closes a member or drops the last one.
* `Session.use_descends`: whatever is done, loggers come from loggers of the same family.
* `Session.Effect`: what a use comes to, for the sink of the family.
* `Session.use_effect`: **what every use comes to**: only a use that closes a member or drops the
  last one closes a sink, and it closes that of the family.
-/

namespace Logging

open Sink

/-! ## Giving up a sink -/

namespace Network

theorem reportAll_cells (lines : List String) (w : Network) : (w.reportAll lines).cells = w.cells :=
  reportAll_keeps (I := fun v => v.cells = w.cells) (fun h hcells => hcells.trans h) lines rfl

/-- What becomes of the sink of a family whose last logger is gone. -/
theorem abandonRoot_closes (root : SinkId) (w : Network) :
    ∃ lines, (Logger.abandonRoot root w).2 = (w.close root).2.reportAll lines := by
  unfold Logger.abandonRoot reportFault
  dsimp only
  split
  · exact ⟨[_], rfl⟩
  · exact ⟨[], rfl⟩

end Network

/-! ## Log calls -/

/-- **A log call** lets the network go on. -/
theorem Logger.logWith_goesOn (draws : Draws) (l : Logger) (c : Context) (r : Record) (st : Stages)
    (w : Network) : GoesOn w (l.logWith draws c r st w).2.2 := by
  have hI : Network.OfCells (GoesOn w) := GoesOn.ofCells w
  unfold logWith
  split
  · refine onward_keeps (I := GoesOn w) (fun e _ h => Network.emit_keeps hI e h) (fun r v h => ?_)
      draws l.chain.stages c r st (.refl w)
    unfold ChainEnd.handle
    split
    · exact Network.emit_keeps hI _ h
    · exact h
    · exact h.trans (v.write_goesOn _ _)
  · exact .refl w

namespace Session

variable {s t : Session} {f : ℕ} {m name : String} {l : Logger}

/-! ## Uses -/

/-- **What a program does with a member of a family**, which it knows by name. -/
inductive Use where
  | clone (member new : String)
  | withFields (member new : String) (fields : Fields)
  | withGroup (member new group : String)
  | log (member : String) (level : Level) (message : String)
  | logWith (member : String) (c : Context) (r : Record)
  | close (member : String)
  | drop (member : String)

def Use.member : Use → String
  | clone m _ => m
  | withFields m _ _ => m
  | withGroup m _ _ => m
  | log m _ _ => m
  | logWith m _ _ => m
  | close m => m
  | drop m => m

/-- The member of a family with that name. -/
def member? (f : ℕ) (name : String) (s : Session) : Option Logger :=
  (s.logger? name).filter fun l => l.family = f

/-- Puts a logger under a name, unless the name is taken. -/
def derive (new : String) (l : Logger) (s : Session) : Session :=
  if (s.object? new).isSome then s else s.put new (.logger l)

/-- One use. Nothing is done if no member has the name. -/
def use (f : ℕ) (s : Session) (u : Use) : Session :=
  match s.member? f u.member with
  | none => s
  | some l =>
    match u with
    | .clone _ new => s.derive new l
    | .withFields _ new fields => s.derive new (l.withFields fields)
    | .withGroup _ new group => s.derive new (l.withGroup group)
    | .log _ level message => (s.log l level message).2
    | .logWith _ c r => (s.logWith l c r).2
    | .close _ => (s.closeLogger l).2
    | .drop m => (s.drop m).2

/-- Uses, one after the other. -/
def uses (f : ℕ) (us : List Use) (s : Session) : Session := us.foldl (use f) s

/-- The session without the object of a name. -/
def without (m : String) (s : Session) : Session :=
  { s with objects := s.objects.filter fun e => e.1 ≠ m }

/-- Whether a use closes a member, or drops the last one. -/
def closes (f : ℕ) (s : Session) (u : Use) : Bool :=
  match s.member? f u.member, u with
  | some _, .close _ => true
  | some _, .drop m => !(s.without m).hasFamily f
  | _, _ => false

/-- Whether some of these uses does. -/
def anyCloses (f : ℕ) : List Use → Session → Bool
  | [], _ => false
  | u :: us, s => s.closes f u || anyCloses f us (s.use f u)

/-! ## Where loggers come from -/

theorem mem_bare : (name, .logger l) ∈ s.bare ↔ (name, .logger l) ∈ s.objects := by
  simp only [bare, List.mem_map, Prod.mk.injEq]
  constructor
  · rintro ⟨⟨name, o⟩, he, rfl, ho⟩
    rwa [← Object.eq_logger ho]
  · exact fun he => ⟨_, he, rfl, rfl⟩

theorem mem_of_logger? (h : s.logger? name = some l) : (name, .logger l) ∈ s.objects := by
  obtain ⟨before, after, he, -⟩ := List.lookup_eq_some_iff.1 (logger?_eq_some.1 h)
  exact mem_bare.1 (by simp [he])

/-- **Every logger of the later session was derived from one of the earlier**, and families keep
their sinks. -/
structure Descends (s t : Session) : Prop where
  loggers : ∀ name l, (name, .logger l) ∈ t.objects → ∃ name' l', (name', .logger l') ∈ s.objects ∧
    l.family = l'.family ∧ l.chain.arrival = l'.chain.arrival
  roots : ∀ f : ℕ, (t.families[f]?).map Family.root = (s.families[f]?).map Family.root

namespace Descends

theorem refl (s : Session) : Descends s s :=
  ⟨fun name l h => ⟨name, l, h, rfl, rfl⟩, fun _ => rfl⟩

theorem trans {u : Session} (h : Descends s t) (h' : Descends t u) : Descends s u := by
  refine ⟨fun name l hl => ?_, fun f => (h'.roots f).trans (h.roots f)⟩
  obtain ⟨name', l', hl', hfamily, harrival⟩ := h'.loggers name l hl
  obtain ⟨name'', l'', hl'', hfamily', harrival'⟩ := h.loggers name' l' hl'
  exact ⟨name'', l'', hl'', hfamily.trans hfamily', harrival.trans harrival'⟩

theorem derive (hl : (name, .logger l) ∈ s.objects) (new : String) (l' : Logger)
    (hfamily : l'.family = l.family) (harrival : l'.chain.arrival = l.chain.arrival) :
    Descends s (s.derive new l') := by
  unfold Session.derive
  split
  · exact .refl s
  · refine ⟨fun name' k hk => ?_, fun _ => rfl⟩
    obtain hk | hk := List.mem_append.1 hk
    · exact ⟨name', k, hk, rfl, rfl⟩
    · cases List.mem_singleton.1 hk
      exact ⟨name, l, hl, hfamily, harrival⟩

theorem without (m : String) (s : Session) : Descends s (s.without m) :=
  ⟨fun name l h => ⟨name, l, (List.mem_filter.1 h).1, rfl, rfl⟩, fun _ => rfl⟩

end Descends

theorem SameObjects.descends (h : SameObjects s t) : Descends s t := by
  refine ⟨fun name l hl => ⟨name, l, ?_, rfl, rfl⟩, h.roots⟩
  rwa [← mem_bare, ← h.objects, mem_bare]

theorem log_goesOn (l : Logger) (level : Level) (message : String) (s : Session) :
    GoesOn s (s.log l level message).2 :=
  actWithStages_goesOn (l.logWith_goesOn s.draws .empty (.new level message) s.stages s.network)

theorem logWith_goesOn (l : Logger) (c : Context) (r : Record) (s : Session) :
    GoesOn s (s.logWith l c r).2 :=
  actWithStages_goesOn (l.logWith_goesOn s.draws c r s.stages s.network)

theorem closeFamily_same (f : ℕ) (s : Session) : SameObjects s (s.closeFamily f) := by
  refine ⟨rfl, fun g => ?_⟩
  simp only [closeFamily, Array.getElem?_modify]
  split
  · cases s.families[g]? <;> rfl
  · rfl

theorem act_same {α : Type} (g : Network → α × Network) (s : Session) :
    SameObjects s (s.act g).2 :=
  ⟨(act_rests g s).objects.objects, (act_rests g s).objects.roots⟩

theorem closeLogger_same (l : Logger) (s : Session) : SameObjects s (s.closeLogger l).2 :=
  (s.openGates_goesOn.objects.trans (act_same _ _)).trans (closeFamily_same _ _)

theorem object?_of_logger? (h : s.logger? name = some l) : s.object? name = some (.logger l) := by
  unfold logger? at h
  split at h
  · rename_i hobject
    cases h
    exact hobject
  · cases h

theorem drop_eq (h : s.logger? m = some l) :
    s.drop m = (s.openGates.without m).dispose (.logger l) := by
  have hobject := object?_of_logger? ((s.openGates_goesOn.objects.logger? m).trans h)
  unfold drop
  simp only [hobject]
  rfl

theorem dispose_same (l : Logger) (s : Session) : SameObjects s (s.dispose (.logger l)).2 := by
  unfold dispose
  dsimp only
  split
  · exact .refl s
  · exact (closeFamily_same _ s).trans (act_same _ _)

theorem member?_eq_some :
    s.member? f name = some l ↔ s.logger? name = some l ∧ l.family = f := by
  simp [member?, Option.filter_eq_some_iff]

/-- **Whatever is done, loggers come from loggers** of the same family. -/
theorem use_descends (f : ℕ) (s : Session) (u : Use) : Descends s (s.use f u) := by
  unfold use
  cases hl : s.member? f u.member with
  | none => exact .refl s
  | some l =>
    have hlogger := (member?_eq_some.1 hl).1
    have hmem := mem_of_logger? hlogger
    cases u with
    | clone m new => exact .derive hmem new l rfl rfl
    | withFields m new fields =>
      refine .derive hmem new (l.withFields fields) rfl ?_
      unfold Logger.withFields Chain.withAttributes
      dsimp only
      split <;> rfl
    | withGroup m new group =>
      refine .derive hmem new (l.withGroup group) rfl ?_
      unfold Logger.withGroup Chain.withGroup
      dsimp only
      split <;> rfl
    | log m level message => exact (log_goesOn l level message s).objects.descends
    | logWith m c r => exact (logWith_goesOn l c r s).objects.descends
    | close m => exact (closeLogger_same l s).descends
    | drop m =>
      dsimp only
      rw [drop_eq (m := m) hlogger]
      exact (s.openGates_goesOn.objects.descends.trans (.without _ _)).trans
        (dispose_same l _).descends

/-! ## What a use does to sinks -/

/-- The network when a sink was just closed. The gates were opened before that. -/
def afterClose (root : SinkId) (s : Session) : Network := (s.openGates.network.close root).2

/-- **What a use comes to**, for the sink of the family; and whether the use closed it. -/
inductive Effect (f : ℕ) (root : SinkId) (s t : Session) : Bool → Prop where
  /-- No sink was closed, and a member is left if there was one. -/
  | goesOn (network : Logging.GoesOn s.network t.network)
      (members : s.hasFamily f → t.hasFamily f) : Effect f root s t false
  /-- The sink was closed. -/
  | closed (network : t.network.cells = (s.afterClose root).settle.cells) :
      Effect f root s t true
  /-- No member is left: the sink was closed, a fault in that was reported, and the sinks that
  nobody holds any more were given up. -/
  | last (lines : List String) (ids : List SinkId)
      (network : t.network.cells = ((((s.afterClose root).reportAll lines).release
        t.held ids).2.settle).cells)
      (members : t.hasFamily f = false) : Effect f root s t true

variable {root : SinkId}

theorem act_cells {α : Type} (g : Network → α × Network) (s : Session) :
    (s.act g).2.network.cells = (g s.network).2.settle.cells :=
  settle_cells { s with network := (g s.network).2 }

theorem SameObjects.without (h : SameObjects s t) (m : String) :
    SameObjects (s.without m) (t.without m) := by
  have hbare : ∀ v : Session, (v.without m).bare = v.bare.filter fun e => e.1 ≠ m := fun v => by
    simp only [Session.without, bare, List.filter_map]
    rfl
  exact ⟨by rw [hbare, hbare, h.objects], h.roots⟩

theorem rootSink_eq (h : (s.families[l.family]?).map Family.root = some root) :
    s.rootSink l = root := by
  obtain ⟨family, hfamily, rfl⟩ := Option.map_eq_some_iff.1 h
  simp only [rootSink, hfamily]

/-- The last member of a family is let go. -/
theorem dispose_last (hlast : s.hasFamily l.family = false)
    (hroot : (s.families[l.family]?).map Family.root = some root) :
    ∃ lines ids, (s.dispose (.logger l)).2.network.cells =
      ((((s.network.close root).2.reportAll lines).release s.held ids).2.settle).cells := by
  have hsame := closeFamily_same l.family s
  obtain ⟨family, hfamily, rfl⟩ := Option.map_eq_some_iff.1 ((hsame.roots l.family).trans hroot)
  obtain ⟨lines, hlines⟩ := Network.abandonRoot_closes family.root s.network
  refine ⟨lines, s.references (.logger l), ?_⟩
  unfold dispose
  simp only [hlast, Bool.false_eq_true, if_false, hfamily]
  -- the sinks are given up by what the program holds once the family is closed
  rw [act_cells, hsame.held, ← hlines]
  rfl

theorem closeLogger_cells (l : Logger)
    (hroot : (s.families[l.family]?).map Family.root = some root) :
    (s.closeLogger l).2.network.cells = (s.afterClose root).settle.cells := by
  have hopened := (s.openGates_goesOn.objects.roots l.family).trans hroot
  rw [← rootSink_eq hopened]
  exact act_cells _ _

theorem hasFamily_of_mem (h : (name, .logger l) ∈ s.objects) (hl : l.family = f) :
    s.hasFamily f = true :=
  List.any_eq_true.2 ⟨_, h, by simpa using hl⟩

/-- A drop of a member. -/
theorem drop_effect (hl : s.logger? m = some l)
    (hroot : (s.families[l.family]?).map Family.root = some root) :
    Effect l.family root s (s.drop m).2 (!(s.without m).hasFamily l.family) := by
  have hopened := s.openGates_goesOn
  have hmembers := (hopened.objects.without m).hasFamily l.family
  have hsame := dispose_same l (s.openGates.without m)
  rw [drop_eq hl, ← hmembers]
  cases hlast : (s.openGates.without m).hasFamily l.family with
  | true =>
    have hstays : (s.openGates.without m).dispose (.logger l) =
        (.ok (), s.openGates.without m) := by
      simp only [dispose, hlast, if_true]
    rw [hstays]
    exact .goesOn hopened.network fun _ => hlast
  | false =>
    obtain ⟨lines, ids, hcells⟩ := dispose_last hlast ((hopened.objects.roots l.family).trans hroot)
    refine .last lines ids ?_ ((hsame.hasFamily _).trans hlast)
    rw [hsame.held]
    exact hcells

/-- **What every use comes to.** -/
theorem use_effect (hroot : (s.families[f]?).map Family.root = some root) (u : Use) :
    Effect f root s (s.use f u) (s.closes f u) := by
  have hderive : ∀ (new : String) (l' : Logger), Effect f root s (s.derive new l') false := by
    intro new l'
    unfold derive
    split
    · exact .goesOn (.refl _) fun h => h
    · refine .goesOn (.refl _) fun h => ?_
      obtain ⟨e, he, hlogger⟩ := List.any_eq_true.1 h
      exact List.any_eq_true.2 ⟨e, List.mem_append_left _ he, hlogger⟩
  have hlogged : ∀ {t : Session}, GoesOn s t → Effect f root s t false := fun h =>
    .goesOn h.network fun hmembers => (h.objects.hasFamily f).trans hmembers
  unfold use closes
  cases hl : s.member? f u.member with
  | none => exact .goesOn (.refl _) fun h => h
  | some l =>
    obtain ⟨hlogger, rfl⟩ := member?_eq_some.1 hl
    cases u with
    | clone m new => exact hderive new l
    | withFields m new fields => exact hderive new (l.withFields fields)
    | withGroup m new group => exact hderive new (l.withGroup group)
    | log m level message => exact hlogged (log_goesOn l level message s)
    | logWith m c r => exact hlogged (logWith_goesOn l c r s)
    | close m => exact .closed (closeLogger_cells l hroot)
    | drop m => exact drop_effect hlogger hroot

end Session

end Logging
