import Logging.Middleware.Chain
import Logging.Proofs.Fields.Insert

/-!
# Derived chains

A chain that was derived from another one gives attributes to every record and puts the record's
fields into groups.

* `Chain.Derivation`: a call that derives a chain; `Chain.family`: chains that were derived from one
  another.
* `Chain.received`: what comes to the end of the way, as the derivations say.
* `Chain.deriveAll_eq`: **a derived chain in closed form.**
* `Chain.received_eq_put`: a record without attributes and groups is left alone, which makes no
  difference.
* `Chain.derived_chains_attach`: **every chain of a family does what its own derivations say**,
  whatever else was derived.
-/

namespace Logging.Chain

/-- A call that derives a chain. -/
inductive Derivation where
  | stage (id : Nat)
  | attributes (f : Fields)
  | group (name : String)
  deriving DecidableEq

def derive (c : Chain) : Derivation → Chain
  | .stage id => c.withStage id
  | .attributes f => c.withAttributes f
  | .group name => c.withGroup name

/-- The chain that several calls derive, each from the one before. -/
def deriveAll (c : Chain) (ds : List Derivation) : Chain := ds.foldl derive c

/-! ## What derivations say -/

namespace Derivation

def isStage : Derivation → Bool
  | stage _ => true
  | _ => false

def added : List Derivation → List Nat
  | [] => []
  | stage id :: ds => id :: added ds
  | attributes _ :: ds => added ds
  | group _ :: ds => added ds

/-- The groups that are opened, the outermost first. A group without a name is none. -/
def opened : List Derivation → List String
  | [] => []
  | stage _ :: ds => opened ds
  | attributes _ :: ds => opened ds
  | group name :: ds => if name = "" then opened ds else name :: opened ds

/-- Fields whose names have these groups in front. -/
def inGroups (gs : List String) (f : Fields) : List (String × Value) :=
  f.entries.map fun e => (".".intercalate (gs ++ [e.1]), e.2)

/-- The attributes that are given, in order, while these groups are open already. Each is in the
groups that were open at its call. -/
def given (gs : List String) : List Derivation → List (String × Value)
  | [] => []
  | stage _ :: ds => given gs ds
  | attributes f :: ds => inGroups gs f ++ given gs ds
  | group name :: ds => if name = "" then given gs ds else given (gs ++ [name]) ds

end Derivation

open Chain.Derivation

/-- A record whose fields are in the groups and behind the attributes that such calls give. -/
def put (ds : List Derivation) (r : Record) : Record :=
  { r with fields := .ofList (given [] ds ++ inGroups (opened ds) r.fields) }

/-- **What comes to the end of the way** of a derived chain instead of a record: the record itself
if no attributes are given and no groups are opened. -/
def received (ds : List Derivation) (r : Record) : Record :=
  if (given [] ds).isEmpty && (opened ds).isEmpty then r else put ds r

example : (received [.attributes ⟨[("service", .string "api")]⟩, .group "http", .group "",
      .attributes ⟨[("method", .string "GET")]⟩]
    ⟨.info, "served", ⟨[("status", .int 200)]⟩, none⟩).fields.keys =
      ["service", "http.method", "http.status"] := by
  decide

/-! ## A derived chain in closed form -/

theorem qualify_entries (c : Chain) (f : Fields) :
    (c.qualify f).entries = inGroups c.groups f := by
  unfold qualify inGroups
  split
  · rename_i h
    simp [List.isEmpty_iff.1 h]
  · rename_i h
    have hg : c.groups ≠ [] := fun he => h (by simp [he])
    simp [Fields.qualify, groupName, String.intercalate_append_of_ne_nil hg]

theorem insertAll_qualify (c : Chain) (es : List (String × Value)) (f : Fields) :
    (Fields.ofList es).insertAll (c.qualify f) = .ofList (es ++ inGroups c.groups f) := by
  rw [Fields.ofList, Fields.ofList, Fields.insertAll_append, ← qualify_entries]

/-- Without fields nothing is inserted, so the shortcut makes no difference. -/
theorem withAttributes_eq (c : Chain) (f : Fields) :
    c.withAttributes f = { c with attributes := c.attributes.insertAll (c.qualify f) } := by
  unfold withAttributes
  split
  · rename_i hf
    have hnone : (c.qualify f).entries = [] := by
      rw [qualify_entries, inGroups, List.isEmpty_iff.1 hf, List.map_nil]
    rw [Fields.insertAll, hnone, List.foldl_nil]
  · rfl

/-- **A derived chain in closed form.** -/
theorem deriveAll_eq : ∀ (ds : List Derivation) (c : Chain) (es : List (String × Value)),
    c.attributes = .ofList es → c.deriveAll ds =
      { stages := c.stages ++ added ds, arrival := c.arrival,
        attributes := .ofList (es ++ given c.groups ds), groups := c.groups ++ opened ds } := by
  intro ds
  induction ds with
  | nil =>
    intro c es hes
    simp [deriveAll, added, opened, given, ← hes]
  | cons d ds ih =>
    intro c es hes
    rw [deriveAll, List.foldl_cons, ← deriveAll]
    cases d with
    | stage id =>
      rw [derive, ih (c.withStage id) es hes]
      simp [withStage, added, opened, given]
    | attributes f =>
      have hgiven : c.withAttributes f =
          { c with attributes := .ofList (es ++ inGroups c.groups f) } := by
        rw [withAttributes_eq, hes, insertAll_qualify]
      rw [derive, hgiven, ih { c with attributes := .ofList (es ++ inGroups c.groups f) } _ rfl]
      simp [added, opened, given]
    | group name =>
      by_cases hname : name = ""
      · have hsame : c.withGroup name = c := by simp [withGroup, hname]
        rw [derive, hsame, ih c es hes]
        simp [added, opened, given, hname]
      · -- what was given before stays outside of the new group
        have hopen : c.withGroup name = { c with groups := c.groups ++ [name] } := by
          simp [withGroup, hname]
        rw [derive, hopen, ih { c with groups := c.groups ++ [name] } es hes]
        simp [added, opened, given, hname]

variable {st : List Nat} {e : ChainEnd}

/-- **The way through a derived chain** ends with what its derivations say. -/
theorem handle_deriveAll (draws : Draws) (st : List Nat) (e : ChainEnd) (ds : List Derivation) :
    (deriveAll { stages := st, arrival := e } ds).handle draws =
      onward draws (fun r w => e.handle (received ds r) w) (st ++ added ds) := by
  have hempty (es : List (String × Value)) : (Fields.ofList es).isEmpty = es.isEmpty :=
    Fields.isEmpty_insertAll _ _
  rw [deriveAll_eq ds _ [] rfl]
  simp only [handle, attach, received, put, insertAll_qualify, hempty, List.nil_append]

/-! ## Chains that were derived from one another -/

/-- One more chain is derived from the one with that number. -/
def grow (cs : List Chain) (op : Nat × Derivation) : List Chain :=
  match cs[op.1]? with
  | some c => cs ++ [c.derive op.2]
  | none => cs

/-- The chains that there are after such calls, the oldest first. -/
def family (root : Chain) (ops : List (Nat × Derivation)) : List Chain := ops.foldl grow [root]

/-- One more list of calls is known. -/
def trace (ls : List (List Derivation)) (op : Nat × Derivation) : List (List Derivation) :=
  match ls[op.1]? with
  | some ds => ls ++ [ds ++ [op.2]]
  | none => ls

/-- The calls by which each chain of a family was derived from the first one. -/
def lineages (ops : List (Nat × Derivation)) : List (List Derivation) := ops.foldl trace [[]]

theorem foldl_grow (root : Chain) : ∀ (ops : List (Nat × Derivation)) (ls : List (List Derivation)),
    ops.foldl grow (ls.map root.deriveAll) = (ops.foldl trace ls).map root.deriveAll := by
  intro ops
  induction ops with
  | nil => intro ls; rfl
  | cons op ops ih =>
    intro ls
    have hstep : grow (ls.map root.deriveAll) op = (trace ls op).map root.deriveAll := by
      unfold grow trace
      rw [List.getElem?_map]
      cases ls[op.1]? with
      | none => rfl
      | some ds => simp [deriveAll]
    rw [List.foldl_cons, List.foldl_cons, hstep, ih]

/-- **Each chain of a family** is the first one with its own derivations. -/
theorem family_eq (root : Chain) (ops : List (Nat × Derivation)) :
    family root ops = (lineages ops).map root.deriveAll :=
  foldl_grow root ops [[]]

theorem prefix_grow : ∀ (ops : List (Nat × Derivation)) (cs : List Chain),
    cs <+: ops.foldl grow cs := by
  intro ops
  induction ops with
  | nil => intro cs; exact List.prefix_refl cs
  | cons op ops ih =>
    intro cs
    have hstep : cs <+: grow cs op := by
      unfold grow
      split
      · exact List.prefix_append cs _
      · exact List.prefix_refl cs
    exact hstep.trans (ih _)

/-! ## The order of derivations -/

section Order

variable {gs gs' : List String}

theorem added_append (ds ds' : List Derivation) : added (ds ++ ds') = added ds ++ added ds' := by
  induction ds with
  | nil => rfl
  | cons d ds ih => cases d <;> simp [added, ih]

theorem opened_append (ds ds' : List Derivation) :
    opened (ds ++ ds') = opened ds ++ opened ds' := by
  induction ds with
  | nil => rfl
  | cons d ds ih =>
    cases d with
    | group name => by_cases hname : name = "" <;> simp [opened, ih, hname]
    | _ => simp [opened, ih]

theorem given_append (ds ds' : List Derivation) (gs : List String) :
    given gs (ds ++ ds') = given gs ds ++ given (gs ++ opened ds) ds' := by
  induction ds generalizing gs with
  | nil => simp [given, opened]
  | cons d ds ih =>
    cases d with
    | group name => by_cases hname : name = "" <;> simp [given, opened, ih, hname]
    | _ => simp [given, opened, ih]

/-- Stages change neither the attributes nor the groups, and nothing else adds stages. -/
theorem filter_isStage (ds : List Derivation) (gs : List String) :
    added (ds.filter isStage) = added ds ∧ opened (ds.filter isStage) = [] ∧
      given gs (ds.filter isStage) = [] := by
  induction ds with
  | nil => exact ⟨rfl, rfl, rfl⟩
  | cons d ds ih =>
    cases d with
    | stage id =>
      rw [List.filter_cons_of_pos rfl]
      exact ⟨congrArg (id :: ·) ih.1, ih.2⟩
    | _ => rw [List.filter_cons_of_neg (by simp [isStage])]; exact ih

theorem filter_not_isStage (ds : List Derivation) (gs : List String) :
    added (ds.filter fun d => !d.isStage) = [] ∧
      opened (ds.filter fun d => !d.isStage) = opened ds ∧
      given gs (ds.filter fun d => !d.isStage) = given gs ds := by
  induction ds generalizing gs with
  | nil => exact ⟨rfl, rfl, rfl⟩
  | cons d ds ih =>
    cases d with
    | stage id => rw [List.filter_cons_of_neg (by simp [isStage])]; exact ih gs
    | attributes f =>
      rw [List.filter_cons_of_pos rfl]
      exact ⟨(ih gs).1, (ih gs).2.1, congrArg (inGroups gs f ++ ·) (ih gs).2.2⟩
    | group name =>
      rw [List.filter_cons_of_pos rfl]
      refine ⟨(ih gs).1, ?_, ?_⟩
      · simp only [opened, (ih gs).2.1]
      · simp only [given, (ih gs).2.2, (ih (gs ++ [name])).2.2]

/-- **When stages are added does not matter**: they may all come last. -/
theorem deriveAll_stages_last (st : List Nat) (e : ChainEnd) (ds : List Derivation) :
    deriveAll { stages := st, arrival := e } ds =
      deriveAll { stages := st, arrival := e }
        (ds.filter (fun d => !d.isStage) ++ ds.filter isStage) := by
  obtain ⟨h₁, h₂, h₃⟩ := filter_not_isStage ds []
  obtain ⟨h₄, h₅, h₆⟩ := filter_isStage ds (opened ds)
  rw [deriveAll_eq _ _ [] rfl, deriveAll_eq _ _ [] rfl]
  simp only [added_append, opened_append, given_append, h₁, h₂, h₃, h₄, h₅, h₆, List.nil_append,
    List.append_nil]

/-! ## Groups in groups -/

/-- Groups that put the same text in front of every name. -/
def SameText (gs gs' : List String) : Prop :=
  ∀ l, l ≠ [] → ".".intercalate (gs ++ l) = ".".intercalate (gs' ++ l)

theorem SameText.append (h : SameText gs gs') (l : List String) :
    SameText (gs ++ l) (gs' ++ l) := by
  intro k hk
  simpa using h (l ++ k) (by simp [hk])

theorem SameText.inGroups (h : SameText gs gs') (f : Fields) :
    Derivation.inGroups gs f = Derivation.inGroups gs' f := by
  unfold Derivation.inGroups
  refine List.map_congr_left fun e _ => ?_
  rw [h [e.1] (by simp)]

theorem SameText.given (h : SameText gs gs') (ds : List Derivation) :
    Derivation.given gs ds = Derivation.given gs' ds := by
  induction ds generalizing gs gs' with
  | nil => rfl
  | cons d ds ih =>
    cases d with
    | stage id => exact ih h
    | attributes f => simp only [Derivation.given, h.inGroups f, ih h]
    | group name => simp only [Derivation.given, ih h, ih (h.append [name])]

/-- Two groups, the second in the first, and one group whose name is theirs joined. -/
theorem sameText_joined (gs : List String) (a b : String) :
    SameText (gs ++ opened [.group a, .group b])
      (gs ++ opened [.group (".".intercalate ([a, b].filter (· ≠ "")))]) := by
  intro l hl
  by_cases ha : a = ""
  · by_cases hb : b = "" <;> simp [opened, ha, hb]
  · by_cases hb : b = ""
    · simp [opened, ha, hb]
    · have hne : a ++ "." ++ b ≠ "" := by
        intro h
        exact ha (by simpa using congrArg String.toList h)
      have htwo : opened [.group a, .group b] = [a, b] := by simp [opened, ha, hb]
      have hone : opened [.group (".".intercalate ([a, b].filter (· ≠ "")))] =
          [a ++ "." ++ b] := by
        simp [opened, ha, hb, hne]
      have hjoin : ".".intercalate ([a, b] ++ l) = ".".intercalate ([a ++ "." ++ b] ++ l) := by
        simp [String.intercalate_cons_of_ne_nil, hl, String.append_assoc]
      rw [htwo, hone, List.append_assoc, List.append_assoc]
      -- the groups before them come with one dot in both cases
      cases gs with
      | nil => exact hjoin
      | cons g gs =>
        have hgs : g :: gs ≠ [] := by simp
        rw [String.intercalate_append_of_ne_nil hgs (by simp),
          String.intercalate_append_of_ne_nil hgs (by simp), hjoin]

/-- The one group has no name if both have none. -/
theorem opened_joined (a b : String) :
    opened [.group a, .group b] = [] ↔
      opened [.group (".".intercalate ([a, b].filter (· ≠ "")))] = [] := by
  by_cases ha : a = ""
  · by_cases hb : b = "" <;> simp [opened, ha, hb]
  · by_cases hb : b = ""
    · simp [opened, ha, hb]
    · have hne : a ++ "." ++ b ≠ "" := fun h => ha (by simpa using congrArg String.toList h)
      simp [opened, ha, hb, hne]

theorem handle_joined (draws : Draws) (st : List Nat) (e : ChainEnd) (ds ds' : List Derivation)
    (a b : String) :
    (deriveAll { stages := st, arrival := e } (ds ++ [.group a, .group b] ++ ds')).handle draws =
      (deriveAll { stages := st, arrival := e }
        (ds ++ [.group (".".intercalate ([a, b].filter (· ≠ "")))] ++ ds')).handle draws := by
  have hsame := sameText_joined (opened ds) a b
  -- attributes that are given behind the groups, and the fields of records, get the same names
  have hreceived : ∀ r, received (ds ++ [.group a, .group b] ++ ds') r =
      received (ds ++ [.group (".".intercalate ([a, b].filter (· ≠ "")))] ++ ds') r := by
    intro r
    have hgiven : given [] (ds ++ [.group a, .group b] ++ ds') =
        given [] (ds ++ [.group (".".intercalate ([a, b].filter (· ≠ "")))] ++ ds') := by
      simp only [given_append, opened_append, List.nil_append, hsame.given ds']
      simp [given]
    have hput : put (ds ++ [.group a, .group b] ++ ds') r =
        put (ds ++ [.group (".".intercalate ([a, b].filter (· ≠ "")))] ++ ds') r := by
      simp only [put, hgiven, opened_append, (hsame.append (opened ds')).inGroups r.fields]
    have hempty : (opened (ds ++ [.group a, .group b] ++ ds')).isEmpty =
        (opened (ds ++ [.group (".".intercalate ([a, b].filter (· ≠ "")))] ++ ds')).isEmpty := by
      rw [Bool.eq_iff_iff, opened_append, opened_append, opened_append, opened_append]
      simp only [List.isEmpty_iff, List.append_eq_nil_iff, opened_joined a b]
    rw [received, received, hgiven, hput, hempty]
  rw [handle_deriveAll, handle_deriveAll, added_append, added_append, added_append, added_append]
  simp only [hreceived]
  rfl

end Order

/-! ## What chains do with records -/

/-- Different names stay different in groups. -/
theorem distinct_inGroups (gs : List String) {f : Fields} (h : f.keys.Nodup) :
    (Fields.mk (inGroups gs f)).keys.Nodup := by
  have hinj : ∀ k k' : String, ".".intercalate (gs ++ [k]) = ".".intercalate (gs ++ [k']) →
      k = k' := by
    intro k k' he
    cases gs with
    | nil => simpa using he
    | cons g gs =>
      rw [String.intercalate_append_of_ne_nil (by simp) (by simp),
        String.intercalate_append_of_ne_nil (by simp) (by simp)] at he
      simpa [← String.toList_inj] using he
  have hkeys : (Fields.mk (inGroups gs f)).keys =
      f.keys.map fun k => ".".intercalate (gs ++ [k]) := by
    simp [Fields.keys, inGroups]
  rw [hkeys]
  exact List.Nodup.map hinj h

/-- **With distinct names it makes no difference** that records are left alone where nothing is
given and no group is open. -/
theorem received_eq_put (ds : List Derivation) {r : Record} (hr : r.fields.keys.Nodup) :
    received ds r = put ds r := by
  unfold received
  split
  · rename_i h
    obtain ⟨hgiven, hopened⟩ := Bool.and_eq_true_iff.1 h
    have hsame : inGroups [] r.fields = r.fields.entries := by simp [inGroups]
    rw [put, List.isEmpty_iff.1 hgiven, List.isEmpty_iff.1 hopened, hsame, List.nil_append,
      Fields.ofList_entries hr]
  · rfl

/-- **What a chain does** that was derived by such calls from one with these stages and this end. -/
structure Attaches (st : List Nat) (e : ChainEnd) (ds : List Derivation) (c : Chain) : Prop where
  /-- Records go through the stages, and the end is given what the derivations say. -/
  handles : ∀ draws,
    c.handle draws = onward draws (fun r w => e.handle (received ds r) w) (st ++ added ds)
  /-- That is a record behind the attributes and in the groups. -/
  places : ∀ r : Record, r.fields.keys.Nodup → received ds r = put ds r
  /-- The names of its fields are distinct. -/
  distinct : ∀ r : Record, r.fields.keys.Nodup → (received ds r).fields.keys.Nodup
  /-- The fields of the record win over attributes. -/
  wins : ∀ r : Record, r.fields.keys.Nodup → ∀ f ∈ inGroups (opened ds) r.fields,
    (received ds r).fields.get? f.1 = some f.2

theorem deriveAll_attaches (st : List Nat) (e : ChainEnd) (ds : List Derivation) :
    Attaches st e ds (deriveAll { stages := st, arrival := e } ds) where
  handles draws := handle_deriveAll draws st e ds
  places _ hr := received_eq_put ds hr
  distinct r hr := by
    rw [received_eq_put ds hr]
    exact Fields.distinct_ofList _
  wins r hr f hf := by
    rw [received_eq_put ds hr]
    simp only [put, Fields.ofList]
    rw [Fields.insertAll_append]
    exact Fields.get?_insertAll_mem (distinct_inGroups _ hr) hf

/-- **Every chain of a family attaches what its own derivations say.** Whatever chains are derived
from one, and from those: each sends records through its stages and hands them over with its
attributes and in its groups; the chains that are there stay as they are when others are derived;
when stages are added does not matter; and a group in a group is one whose name is theirs joined,
where a group without a name is none. -/
theorem derived_chains_attach (st : List Nat) (e : ChainEnd) (ops more : List (Nat × Derivation)) :
    List.Forall₂ (Attaches st e) (lineages ops) (family { stages := st, arrival := e } ops) ∧
    family { stages := st, arrival := e } ops <+: family { stages := st, arrival := e } (ops ++ more) ∧
    (∀ ds ds' : List Derivation, ds.filter isStage = ds'.filter isStage →
      (ds.filter fun d => !d.isStage) = (ds'.filter fun d => !d.isStage) →
      deriveAll { stages := st, arrival := e } ds = deriveAll { stages := st, arrival := e } ds') ∧
    ∀ (draws : Draws) (ds ds' : List Derivation) (a b : String),
      (deriveAll { stages := st, arrival := e } (ds ++ [.group a, .group b] ++ ds')).handle draws =
        (deriveAll { stages := st, arrival := e }
          (ds ++ [.group (".".intercalate ([a, b].filter (· ≠ "")))] ++ ds')).handle draws := by
  refine ⟨?_, ?_, fun ds ds' hs ho => ?_, fun draws => handle_joined draws st e⟩
  · rw [family_eq, List.forall₂_map_right_iff, List.forall₂_same]
    exact fun ds _ => deriveAll_attaches st e ds
  · rw [family, family, List.foldl_append]
    exact prefix_grow more _
  · rw [deriveAll_stages_last, deriveAll_stages_last st e ds', hs, ho]

end Logging.Chain
