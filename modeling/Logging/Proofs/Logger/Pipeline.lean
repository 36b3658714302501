import Logging.Logger.Basic
import Logging.Proofs.Middleware.Derived
import Logging.Proofs.Middleware.Lasting
import Logging.Proofs.Middleware.Onion

/-!
# The pipeline of a logger

A logger drops records up front that the first stage of its chain would hold back. The other stages
that come with it do not count and tell nothing, so what they do together is said in one line.

* `onward_quiet`: stages that neither count nor tell, in front of any way.
* `LoggerPlan.build_chain`: the chain that a plan is built into, with its stages where it put them.
* `LoggerPlan.pipeline`: what becomes of a record, written down part by part.
* `logger_pipeline`: **dropping records up front changes nothing**, and the chain of every logger is
  the pipeline of its plan.
-/

namespace Logging

variable {c : Context} {r : Record} {st st' : Stages} {id : Nat} {x y : Stage} {draws : Draws}

/-! ## Stages that neither count nor tell -/

/-- Stages that neither count nor tell. -/
def Stage.isQuiet : Stage → Bool
  | levelFilter _ | timestamp _ | contextKeys _ | staticFields _ | redact _ => true
  | _ => false

/-- Such a stage lasts as it is. -/
theorem Stage.eq_of_bare (hquiet : x.isQuiet) (h : y.bare = x.bare) : y = x := by
  cases x <;> cases y <;> simp_all [isQuiet, bare]

theorem Stage.isStandard_bare : x.bare.isStandard = x.isStandard := by
  cases x <;> rfl

/-- Stages, by number, that neither count nor tell. -/
def Quiet (st : Stages) : List Nat → List Stage → Prop :=
  List.Forall₂ fun id x => st[id]? = some x ∧ x.isQuiet

theorem Quiet.lasts {ids : List Nat} {xs : List Stage} (h : Quiet st ids xs) (hst : Lasts st st') :
    Quiet st' ids xs := by
  refine List.Forall₂.imp (fun id x hx => ?_) h
  obtain ⟨y, hy, hbare⟩ := hst id x hx.1
  rw [Stage.eq_of_bare hx.2 hbare] at hy
  exact ⟨hy, hx.2⟩

theorem AllStandard.lasts {ids : List Nat} (h : AllStandard st ids) (hst : Lasts st st') :
    AllStandard st' ids := by
  intro id hid
  obtain ⟨x, hx, hstd⟩ := h id hid
  obtain ⟨y, hy, hbare⟩ := hst id x hx
  refine ⟨y, hy, ?_⟩
  rw [← Stage.isStandard_bare, hbare, Stage.isStandard_bare]
  exact hstd

section Ways

variable {σ : Type} [EventLog σ]

/-- A stage that neither counts nor tells only changes the record or holds it back. -/
theorem Stage.handle_quiet (next : Way σ) (hx : st[id]? = some x) (hquiet : x.isQuiet) (s : σ) :
    handle draws id next c r st s =
      match x.passes (draws id) c r with
      | none => (.ok (), st, s)
      | some r' => next c r' st s := by
  unfold handle
  rw [hx]
  cases x with
  | levelFilter lowest => by_cases hlow : r.level < lowest <;> simp [passes, hlow]
  | timestamp | contextKeys | staticFields | redact => rfl
  | _ => cases hquiet

/-- What several such stages let go on for a record. Nothing is drawn for them. -/
def passesAll (c : Context) (xs : List Stage) (r : Record) : Option Record :=
  xs.foldlM (fun r x => x.passes default c r) r

theorem Stage.passes_quiet (hquiet : x.isQuiet) (draw : Nat → Number.Double) (c : Context)
    (r : Record) : x.passes draw c r = x.passes default c r := by
  cases x <;> first | rfl | cases hquiet

/-- **Stages that neither count nor tell, in front of any way.** -/
theorem onward_quiet (draws : Draws) (arrive : Record → σ → Outcome × σ) (more : List Nat)
    {ids : List Nat} {xs : List Stage} (h : Quiet st ids xs) (r : Record) (s : σ) :
    onward draws arrive (ids ++ more) c r st s =
      match passesAll c xs r with
      | none => (.ok (), st, s)
      | some r' => onward draws arrive more c r' st s := by
  induction h generalizing r with
  | nil => rfl
  | @cons id x ids xs hx _ ih =>
    rw [List.cons_append, onward, Stage.handle_quiet _ hx.1 hx.2, passesAll, List.foldlM_cons,
      Stage.passes_quiet hx.2]
    cases hp : x.passes default c r with
    | none => rfl
    | some r' => exact ih r'

end Ways

/-! ## Building -/

namespace LoggerPlan

variable {p : LoggerPlan}

/-- Stages that are added are under new numbers. -/
theorem quiet_addStages (new : List Stage) (hquiet : ∀ x ∈ new, x.isQuiet) (st : Stages) :
    Quiet (addStages new st).2 (addStages new st).1 new := by
  unfold Quiet addStages
  rw [List.forall₂_iff_get]
  refine ⟨by simp, fun i hi hi' => ?_⟩
  have hfound : (st ++ new.toArray)[st.size + i]? = some new[i] := by
    rw [Array.getElem?_append_right (by omega)]
    simp
  simpa using And.intro hfound (hquiet _ (List.getElem_mem hi'))

theorem lasts_addStages (new : List Stage) (st : Stages) : Lasts st (addStages new st).2 :=
  .append st _

theorem quiet_stagesBefore (p : LoggerPlan) : ∀ x ∈ p.stagesBefore, x.isQuiet := by
  intro x hx
  unfold stagesBefore at hx
  rcases List.mem_append.1 hx with hx | hx
  · rcases List.mem_append.1 hx with hx | hx
    · rw [List.mem_singleton.1 hx]
      rfl
    · obtain ⟨clock, -, rfl⟩ : ∃ clock, p.clock = some clock ∧ Stage.timestamp clock = x := by
        simpa using hx
      rfl
  · split at hx
    · rw [List.mem_singleton.1 hx]
      rfl
    · cases hx

theorem quiet_stagesAfter (p : LoggerPlan) : ∀ x ∈ p.stagesAfter, x.isQuiet := by
  intro x hx
  obtain ⟨chain, -, rfl⟩ : ∃ chain, p.redactor = some chain ∧ Stage.redact chain = x := by
    simpa [stagesAfter] using hx
  rfl

/-- The stages of a logger stand around the own ones, where the plan put them. -/
structure Built (p : LoggerPlan) (root : SinkId) (chain : Chain) (st : Stages) : Prop where
  arranged : ∃ before after,
    chain = { stages := before ++ p.stages ++ after, arrival := .write p.format root } ∧
      Quiet st before p.stagesBefore ∧ Quiet st after p.stagesAfter
  standard : AllStandard st p.stages

theorem Built.lasts {root : SinkId} {chain : Chain} (h : p.Built root chain st)
    (hst : Lasts st st') : p.Built root chain st' where
  arranged := by
    obtain ⟨before, after, hchain, hbefore, hafter⟩ := h.arranged
    exact ⟨before, after, hchain, hbefore.lasts hst, hafter.lasts hst⟩
  standard := h.standard.lasts hst

/-- **The chain that a plan is built into.** -/
theorem build_chain {program : List SinkId} {w w' : Network} {root : SinkId} {chain : Chain}
    (hown : AllStandard st p.stages) (h : p.build program st w = (.ok (root, chain), st', w')) :
    p.Built root chain st' := by
  unfold build at h
  split at h
  · cases h
  · rename_i hroot
    obtain ⟨⟨rfl, rfl⟩, rfl, -⟩ := by simpa using h
    have hbefore := quiet_addStages p.stagesBefore p.quiet_stagesBefore st
    have hafter := quiet_addStages p.stagesAfter p.quiet_stagesAfter (addStages p.stagesBefore st).2
    have hlasts := lasts_addStages p.stagesAfter (addStages p.stagesBefore st).2
    exact ⟨⟨_, _, rfl, hbefore.lasts hlasts, hafter⟩,
      hown.lasts ((lasts_addStages p.stagesBefore st).trans hlasts)⟩

/-! ## The parts of the pipeline -/

/-- A record as it comes to the own stages: with a timestamp and the values of the context, as far
as the plan wants them. -/
def prepared (p : LoggerPlan) (c : Context) (r : Record) : Record :=
  let r := match p.clock with
    | some clock => { r with timestamp := some (r.timestamp.getD clock) }
    | none => r
  if p.extractContext then Stage.withContext Context.standardKeys c r else r

/-- A record as it comes to the end: with its message masked, if the plan wants that. -/
def masked (p : LoggerPlan) (r : Record) : Record :=
  match p.redactor with
  | some chain => Stage.masked chain r
  | none => r

theorem passesAll_stagesBefore (p : LoggerPlan) (c : Context) (r : Record) :
    passesAll c p.stagesBefore r = if r.level < p.lowest then none else some (p.prepared c r) := by
  unfold passesAll stagesBefore prepared
  by_cases hlow : r.level < p.lowest
  · simp [Stage.passes, hlow]
  · cases p.clock <;> cases p.extractContext <;> simp [Stage.passes, hlow]

theorem passesAll_stagesAfter (p : LoggerPlan) (c : Context) (r : Record) :
    passesAll c p.stagesAfter r = some (p.masked r) := by
  unfold passesAll stagesAfter masked
  cases p.redactor <;> rfl

end LoggerPlan

/-! ## Derived loggers -/

namespace Logger

/-- A call that derives a logger. -/
inductive Derivation where
  | fields (f : Fields)
  | group (name : String)
  deriving DecidableEq

def derive (l : Logger) : Derivation → Logger
  | .fields f => l.withFields f
  | .group name => l.withGroup name

/-- The logger that several calls derive, each from the one before. -/
def deriveAll (l : Logger) (ds : List Derivation) : Logger := ds.foldl derive l

/-- What a call does to the chain of the logger. -/
def Derivation.onChain : Derivation → Chain.Derivation
  | fields f => .attributes f
  | group name => .group name

theorem deriveAll_eq (ds : List Derivation) (l : Logger) :
    l.deriveAll ds = { l with chain := l.chain.deriveAll (ds.map Derivation.onChain) } := by
  induction ds generalizing l with
  | nil => rfl
  | cons d ds ih =>
    have hstep : l.derive d = { l with chain := l.chain.derive d.onChain } := by cases d <;> rfl
    rw [deriveAll, List.foldl_cons, ← deriveAll, ih, hstep]
    rfl

/-- Deriving a logger adds no stage. -/
theorem added_onChain (ds : List Derivation) :
    Chain.Derivation.added (ds.map Derivation.onChain) = [] := by
  induction ds with
  | nil => rfl
  | cons d ds ih => cases d <;> exact ih

end Logger

/-! ## The whole pipeline -/

/-- **What becomes of a record** that is given to a logger which such calls derived: it is dropped
if it is below the level. Otherwise it is prepared, the own stages run, it is masked, its fields are
put behind the attributes and into the groups, and its line is written to the root. -/
def LoggerPlan.pipeline (draws : Draws) (p : LoggerPlan) (root : SinkId)
    (ds : List Logger.Derivation) : Way Network := fun c r st w =>
  if r.level < p.lowest then (.ok (), st, w)
  else
    let own := walk draws c p.stages (p.prepared c r) st
    let reached : Outcome × Network := match own.arrived with
      | none => (.ok (), told (inward c own.ran) w)
      | some r' =>
        let line := p.format.bytes (Chain.received (ds.map Logger.Derivation.onChain) (p.masked r'))
        (told (inward c own.ran) w).write root line
    (reached.1, own.stages, told (outward reached.1 own.ran) reached.2)

/-- Behind the own stages, a record is masked and its line is written. -/
theorem LoggerPlan.onward_after (draws : Draws) (p : LoggerPlan) (root : SinkId)
    (cds : List Chain.Derivation) {after : List Nat} (h : Quiet st after p.stagesAfter) (c : Context) (r : Record) (w : Network) :
    onward draws (fun r w => (ChainEnd.write p.format root).handle (Chain.received cds r) w) after c
        r st w =
      (let written := w.write root (p.format.bytes (Chain.received cds (p.masked r)))
      (written.1, st, written.2)) := by
  have hend := onward_quiet (c := c) draws
    (fun r w => (ChainEnd.write p.format root).handle (Chain.received cds r) w) [] h r w
  rw [List.append_nil, passesAll_stagesAfter] at hend
  exact hend

/-- The chain of a derived logger is the pipeline of its plan. -/
theorem LoggerPlan.Built.handle_eq {p : LoggerPlan} {root : SinkId} {chain : Chain}
    (h : p.Built root chain st) (ds : List Logger.Derivation) (c : Context) (r : Record)
    (w : Network) :
    (chain.deriveAll (ds.map Logger.Derivation.onChain)).handle draws c r st w =
      p.pipeline draws root ds c r st w := by
  obtain ⟨⟨before, after, rfl, hbefore, hafter⟩, hown⟩ := h
  -- the stages behind the own ones are found as they were built
  have hleft : Lasts st (walk draws c p.stages (p.prepared c r) st).stages := by
    let arrive : Record → Network → Outcome × Network := fun _ w => (.ok (), w)
    have hsame := onward_same draws arrive p.stages c (p.prepared c r) st w
    rw [(onward_nests draws arrive hown c (p.prepared c r) w).2.1] at hsame
    exact hsame.lasts
  have hend := p.onward_after draws root (ds.map Logger.Derivation.onChain)
    (hafter.lasts hleft) c
  rw [Chain.handle_deriveAll, Logger.added_onChain, List.append_nil, List.append_assoc,
    onward_quiet _ _ _ hbefore, passesAll_stagesBefore, pipeline]
  by_cases hlow : r.level < p.lowest
  · rw [if_pos hlow, if_pos hlow]
  · rw [if_neg hlow, if_neg hlow]
    dsimp only
    rw [onward_append _ after _ _ _ _ hown, Walk.around]
    cases (walk draws c p.stages (p.prepared c r) st).arrived with
    | none => rfl
    | some r' =>
      dsimp only
      rw [hend]

/-- **Dropping records up front changes nothing.** Whatever a logger is built from, whatever loggers
are derived from it, whatever random samplers draw, and whatever the stages of the program have
counted since: logging a record has the outcome, leaves the stages and leaves the network that its
way through the chain has, and all of them are those of the pipeline of the plan. Logging a message
is logging a new record of it without a context. -/
theorem logger_pipeline (p : LoggerPlan) (program : List SinkId) {w₀ w₁ : Network} {root : SinkId}
    {chain : Chain} (hown : AllStandard st p.stages)
    (hbuild : p.build program st w₀ = (.ok (root, chain), st', w₁)) {now : Stages}
    (hsince : Since st' now) (family : Nat) (ds : List Logger.Derivation) (draws : Draws)
    (c : Context) (w : Network) :
    let l := Logger.deriveAll { chain, family, lowest := p.lowest } ds
    (∀ r, l.logWith draws c r now w = l.chain.handle draws c r now w) ∧
      (∀ r, l.logWith draws c r now w = p.pipeline draws root ds c r now w) ∧
      ∀ level message,
        l.log draws level message now w = l.logWith draws .empty (.new level message) now w := by
  intro l
  have hl : l = ⟨chain.deriveAll (ds.map Logger.Derivation.onChain), family, p.lowest⟩ :=
    Logger.deriveAll_eq ds _
  have hbuilt := (LoggerPlan.build_chain hown hbuild).lasts hsince.lasts
  have hchain : ∀ r, l.chain.handle draws c r now w = p.pipeline draws root ds c r now w := by
    intro r
    rw [hl]
    exact hbuilt.handle_eq ds c r w
  have hlog : ∀ r, l.logWith draws c r now w = l.chain.handle draws c r now w := by
    intro r
    unfold Logger.logWith
    split
    · rfl
    · rename_i hlow
      -- the first stage holds back what is below the level
      have hbelow : r.level < p.lowest := by
        rw [hl] at hlow
        exact Nat.lt_of_not_le fun hle => hlow (decide_eq_true hle)
      rw [hchain, LoggerPlan.pipeline, if_pos hbelow]
  refine ⟨hlog, fun r => (hlog r).trans (hchain r), fun level message => ?_⟩
  have hlevel : (Record.new level message).level = level := rfl
  rw [Logger.log, Logger.logWith, hlevel]

/-- Masks the whole message. -/
def maskedWhole : RedactorChain := ⟨[.custom fun _ => .owned "masked"]⟩

/-- A plan with every part: a sampler and an observer of its own, a clock, the context and a
redactor. -/
def servicePlan : LoggerPlan where
  lowest := .info
  format := .logfmt .unixMillis
  sinks := [0]
  stages := [0, 1]
  clock := some ⟨7, 0⟩
  redactor := some maskedWhole

/-- The own stages of that plan. -/
def serviceStages : Stages :=
  #[.sampler { every := 2, exempt := [] }, .observer "all" true true]

/-- The sink of that plan. -/
def serviceSinks : Network where
  cells := #[.memory {}]
  disk := default

/-- The chain of that plan: the own stages stand between those that were added behind them. -/
def serviceChain : Chain where
  stages := [2, 3, 4, 0, 1, 5]
  arrival := .write (.logfmt .unixMillis) 0

/-- The stages that there are when it is built. -/
def builtStages : Stages :=
  serviceStages ++ #[.levelFilter .info, .timestamp ⟨7, 0⟩, .contextKeys Context.standardKeys,
    .redact maskedWhole]

/-- A logger that was derived from that plan's. -/
def serviceLogger : Logger :=
  Logger.deriveAll ⟨serviceChain, 0, .info⟩
    [.fields ⟨[("service", .string "api")]⟩, .group "http"]

/-- What is logged. -/
def slowRecord : Record where
  level := .warn
  message := "slow"
  fields := ⟨[("status", .int 200)]⟩
  timestamp := none

/-- The line of the record. -/
def slowLine : String :=
  "timestamp=7000 level=WARN message=\"masked\" service=api http.status=200 http.trace_id=t\n"

/-- The context of the call. -/
def traced : Context := Context.empty.withValue "trace_id" (.string "t")

/-- What a memory sink was given. -/
def kept : Cell → List ByteArray
  | .memory m => m.writes.toList
  | _ => []

/-- A record goes through every part of a pipeline: it is stamped, gets a value of the context, is
counted by the sampler, seen by the observer and masked, and its fields are put into the group
behind an attribute. -/
theorem logger_pipeline_service :
    AllStandard serviceStages servicePlan.stages ∧
    servicePlan.build [0] serviceStages serviceSinks =
      (.ok (0, serviceChain), builtStages, serviceSinks) ∧
    Since builtStages builtStages ∧
    let draws : Draws := fun _ _ => default
    let logged := serviceLogger.logWith draws traced slowRecord builtStages serviceSinks
    logged = serviceLogger.chain.handle draws traced slowRecord builtStages serviceSinks ∧
      logged.1 = .ok () ∧
      kept (logged.2.2.cell 0) = [slowLine.toUTF8] ∧
      logged.2.2.events.size = 2 ∧
      serviceLogger.log draws .debug "slow" builtStages serviceSinks =
        (.ok (), builtStages, serviceSinks) := by
  have hown : AllStandard serviceStages servicePlan.stages := by
    intro id hid
    simp only [servicePlan, List.mem_cons, List.not_mem_nil, or_false] at hid
    rcases hid with rfl | rfl
    · exact ⟨_, rfl, rfl⟩
    · exact ⟨_, rfl, rfl⟩
  have hbuild : servicePlan.build [0] serviceStages serviceSinks =
      (.ok (0, serviceChain), builtStages, serviceSinks) := rfl
  obtain ⟨hchain, hpipeline, hlog⟩ := logger_pipeline servicePlan [0] hown hbuild .same 0
    [.fields ⟨[("service", .string "api")]⟩, .group "http"] (fun _ _ => default) traced serviceSinks
  refine ⟨hown, hbuild, .same, ?_⟩
  intro draws logged
  have hlogged : logged = servicePlan.pipeline draws 0
      [.fields ⟨[("service", .string "api")]⟩, .group "http"] traced slowRecord builtStages
      serviceSinks :=
    hpipeline slowRecord
  refine ⟨hchain slowRecord, ?_, ?_, ?_, (hlog .debug "slow").trans rfl⟩
  · rw [hlogged]
    rfl
  · rw [hlogged]
    decide +kernel
  · rw [hlogged]
    rfl

end Logging
