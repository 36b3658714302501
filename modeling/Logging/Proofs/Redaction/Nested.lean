import Logging.Proofs.Redaction.Fold

/-!
# Chains within chains

A chain is made by adding rules, redactors of other kinds and chains that were made the same way.
A rule whose pattern cannot be read is refused. What is left are the leaves: the rules that were
added and the redactors of other kinds, in the order in which a text comes to them.

* `redactAll_leavesAll`: **a text after nested redactors is the text after their leaves.**
* `redactAll_silent`: redactors that leave the text alone, each at its turn, return it.
* `Addition.add`, `made`: what is added to a chain, and the chain that comes of several additions.
* `made_leaves`: the leaves of a chain are what the additions that are no chains have made.
* `nested_chain_flattens`: **a chain of chains does what the flat chain of its leaves does.**
-/

namespace Logging

namespace Redactor

variable {r : Redactor} {rs : List Redactor} {text : String}

/-! ## Leaves -/

mutual

/-- The redactors in a redactor that are no chains, in the order in which a text comes to them. -/
def leaves : Redactor → List Redactor
  | rule p replacement => [rule p replacement]
  | chain rs => leavesAll rs
  | custom f => [custom f]

/-- The leaves of several redactors, one behind the other. -/
def leavesAll : List Redactor → List Redactor
  | [] => []
  | r :: rs => leaves r ++ leavesAll rs

end

theorem leavesAll_append (rs rs' : List Redactor) :
    leavesAll (rs ++ rs') = leavesAll rs ++ leavesAll rs' := by
  induction rs with
  | nil => rfl
  | cons r rs ih => rw [List.cons_append, leavesAll, leavesAll, ih, List.append_assoc]

mutual

/-- A redactor hands on what its leaves make of the text. A chain always has a text of its own, so
that nothing of it is left aside. -/
theorem redactAll_leaves : ∀ (r : Redactor) (text : String),
    redactAll (leaves r) text = (rewrite r text).after text
  | rule p replacement, text => by rw [leaves, redactAll, redactAll]
  | chain rs, text => by rw [leaves, redactAll_leavesAll rs text, rewrite, Rewrite.after]
  | custom f, text => by rw [leaves, redactAll, redactAll]

/-- **A text after nested redactors** is the text after their leaves. -/
theorem redactAll_leavesAll : ∀ (rs : List Redactor) (text : String),
    redactAll (leavesAll rs) text = redactAll rs text
  | [], _ => by rw [leavesAll]
  | r :: rs, text => by
    have hfirst := redactAll_leaves r text
    have hrest := redactAll_leavesAll rs ((rewrite r text).after text)
    rw [leavesAll, redactAll_append, hfirst, hrest, redactAll]

end

/-! ## Redactors that leave a text alone -/

/-- **Each of these redactors returns the text that it gets at its turn.** -/
def Silent (rs : List Redactor) (text : String) : Prop :=
  ∀ front r, front ++ [r] <+: rs →
    (r.rewrite (redactAll front text)).text = redactAll front text

/-- What a redactor returns unchanged is handed on unchanged. -/
theorem after_of_text (h : (r.rewrite text).text = text) : (r.rewrite text).after text = text := by
  cases hr : r.rewrite text with
  | owned t =>
    rw [hr] at h
    exact h
  | borrowed t => rfl

theorem redactAll_of_unchanged (h : ∀ r ∈ rs, (r.rewrite text).text = text) :
    redactAll rs text = text := by
  induction rs with
  | nil => rfl
  | cons r rs ih =>
    rw [List.forall_mem_cons] at h
    rw [redactAll, after_of_text h.1]
    exact ih h.2

/-- Each of them gets the text itself, as none of those before it has changed it. -/
theorem silent_iff : Silent rs text ↔ ∀ r ∈ rs, (r.rewrite text).text = text := by
  constructor
  · intro h
    induction rs using List.reverseRecOn with
    | nil => exact fun r hr => by cases hr
    | append_singleton rs r ih =>
      have hbefore := ih fun front r' hr' => h front r' (hr'.trans (List.prefix_append rs [r]))
      have hturn := h rs r (List.prefix_refl _)
      rw [redactAll_of_unchanged hbefore] at hturn
      exact List.forall_mem_append.2 ⟨hbefore, List.forall_mem_singleton.2 hturn⟩
  · intro h front r hr
    have hfront : ∀ r' ∈ front, (r'.rewrite text).text = text := fun r' hr' =>
      h r' (hr.subset (List.mem_append_left [r] hr'))
    rw [redactAll_of_unchanged hfront]
    exact h r (hr.subset (List.mem_append_right front List.mem_cons_self))

/-- **Redactors that leave the text alone return it.** -/
theorem redactAll_silent (h : Silent rs text) : redactAll rs text = text :=
  redactAll_of_unchanged (silent_iff.1 h)

end Redactor

namespace RedactorChain

open Redactor

/-! ## Making chains -/

/-- What is added to a chain. -/
inductive Addition where
  /-- A rule, by a text that may not be a pattern. -/
  | rule (pattern replacement : String)
  /-- A redactor of another kind, such as one that puts letters in upper case. -/
  | custom (rewrite : String → Rewrite)
  /-- The chain that comes of these additions. -/
  | chain (additions : List Addition)

mutual

/-- The answer to an addition, and the chain from then on. -/
def Addition.add : Addition → RedactorChain → Except Fault Unit × RedactorChain
  | .rule pattern replacement, c =>
    match c.addRule pattern replacement with
    | .ok c => (.ok (), c)
    | .error f => (.error f, c)
  | .custom f, c => (.ok (), c.push (.custom f))
  | .chain as, c => (.ok (), c.push (addAll as empty).asRedactor)

/-- A chain after several additions, whatever the answers are. -/
def addAll : List Addition → RedactorChain → RedactorChain
  | [], c => c
  | a :: as, c => addAll as (a.add c).2

end

/-- The chain that comes of these additions. -/
def made (as : List Addition) : RedactorChain := addAll as empty

mutual

/-- What is added without being refused and is no chain, in the order in which it is added. -/
def Addition.leaves : Addition → List Addition
  | .rule pattern replacement =>
    if (Pattern.compile? pattern).isSome then [.rule pattern replacement] else []
  | .custom f => [.custom f]
  | .chain as => leavesOf as

/-- The same of several additions. -/
def leavesOf : List Addition → List Addition
  | [] => []
  | a :: as => a.leaves ++ leavesOf as

end

/-- Whether an addition is one redactor that is no chain, and is not refused. -/
def Addition.IsAdded : Addition → Prop
  | .rule pattern _ => (Pattern.compile? pattern).isSome
  | .custom _ => True
  | .chain _ => False

/-- The redactors that come of an addition: one, or none if it is refused. -/
def Addition.adds (a : Addition) : List Redactor := (a.add empty).2.redactors

variable {a : Addition} {as : List Addition} {c : RedactorChain} {pattern : String}

/-! ## One addition -/

theorem add_rule_some {p : Pattern} (h : Pattern.compile? pattern = some p) (replacement : String)
    (c : RedactorChain) : (Addition.rule pattern replacement).add c =
      (.ok (), c.push (.rule p replacement)) := by
  simp [Addition.add, addRule, rule, h, Except.map]

/-- **A rule that is no pattern is refused**, and the chain stays as it is. -/
theorem add_rule_none (h : Pattern.compile? pattern = none) (replacement : String)
    (c : RedactorChain) : (Addition.rule pattern replacement).add c =
      (.error (.pattern pattern "not a pattern"), c) := by
  simp [Addition.add, addRule, rule, h, Except.map]

theorem adds_rule_some {p : Pattern} (h : Pattern.compile? pattern = some p)
    (replacement : String) : (Addition.rule pattern replacement).adds = [.rule p replacement] := by
  rw [Addition.adds, add_rule_some h]
  rfl

theorem adds_rule_none (h : Pattern.compile? pattern = none) (replacement : String) :
    (Addition.rule pattern replacement).adds = [] := by
  rw [Addition.adds, add_rule_none h]
  rfl

theorem adds_custom (f : String → Rewrite) : (Addition.custom f).adds = [.custom f] := by
  rw [Addition.adds, Addition.add]
  rfl

theorem adds_chain (as : List Addition) :
    (Addition.chain as).adds = [.chain (made as).redactors] := by
  rw [Addition.adds, Addition.add]
  rfl

/-- What is added stands behind what is there. -/
theorem add_redactors (a : Addition) (c : RedactorChain) :
    (a.add c).2.redactors = c.redactors ++ a.adds := by
  cases a with
  | rule pattern replacement =>
    cases hp : Pattern.compile? pattern with
    | none => rw [add_rule_none hp, adds_rule_none hp, List.append_nil]
    | some p => rw [add_rule_some hp, adds_rule_some hp, push]
  | custom f => rw [Addition.add, adds_custom, push]
  | chain as => rw [Addition.add, adds_chain, push, asRedactor, made]

theorem Addition.IsAdded.accepted (h : a.IsAdded) (c : RedactorChain) : (a.add c).1 = .ok () := by
  cases a with
  | rule pattern replacement =>
    obtain ⟨p, hp⟩ := Option.isSome_iff_exists.1 h
    rw [add_rule_some hp]
  | custom f => rw [Addition.add]
  | chain as => exact h.elim

theorem Addition.IsAdded.length_adds (h : a.IsAdded) : a.adds.length = 1 := by
  cases a with
  | rule pattern replacement =>
    obtain ⟨p, hp⟩ := Option.isSome_iff_exists.1 h
    rw [adds_rule_some hp, List.length_singleton]
  | custom f => rw [adds_custom, List.length_singleton]
  | chain as => exact h.elim

/-! ## Several additions -/

theorem addAll_redactors (as : List Addition) (c : RedactorChain) :
    (addAll as c).redactors = c.redactors ++ as.flatMap Addition.adds := by
  induction as generalizing c with
  | nil => simp [addAll]
  | cons a as ih => rw [addAll, ih, add_redactors, List.flatMap_cons, List.append_assoc]

theorem made_redactors (as : List Addition) : (made as).redactors = as.flatMap Addition.adds := by
  rw [made, addAll_redactors]
  rfl

/-- Additions that are not refused and are no chains make a redactor each. -/
theorem size_made (h : ∀ a ∈ as, a.IsAdded) : (made as).size = as.length := by
  rw [size, made_redactors]
  induction as with
  | nil => rfl
  | cons a as ih =>
    rw [List.forall_mem_cons] at h
    rw [List.flatMap_cons, List.length_append, h.1.length_adds, ih h.2, List.length_cons,
      Nat.add_comm]

mutual

/-- The leaves of what comes of an addition. -/
theorem adds_leaves : ∀ a : Addition, leavesAll a.adds = (made a.leaves).redactors
  | .rule pattern replacement => by
    cases hp : Pattern.compile? pattern with
    | none => simp [adds_rule_none hp, Addition.leaves, hp, leavesAll, made_redactors]
    | some p =>
      simp [adds_rule_some hp, Addition.leaves, hp, leavesAll, Redactor.leaves, made_redactors]
  | .custom f => by
    simp [adds_custom, Addition.leaves, leavesAll, Redactor.leaves, made_redactors]
  | .chain as => by
    rw [adds_chain, leavesAll, leavesAll, List.append_nil, Redactor.leaves, made_leaves as,
      Addition.leaves]

/-- **The leaves of a chain** are what the additions that are no chains have made. -/
theorem made_leaves : ∀ as : List Addition,
    leavesAll (made as).redactors = (made (leavesOf as)).redactors
  | [] => by simp [made_redactors, leavesOf, leavesAll]
  | a :: as => by
    have hfirst := adds_leaves a
    have hrest := made_leaves as
    simp only [made_redactors] at hfirst hrest ⊢
    rw [List.flatMap_cons, leavesAll_append, hfirst, hrest, leavesOf, List.flatMap_append]

end

mutual

/-- What is left of an addition is one redactor that is no chain, and is not refused. -/
theorem leaves_added : ∀ a : Addition, ∀ b ∈ a.leaves, b.IsAdded
  | .rule pattern replacement, b, hb => by
    rw [Addition.leaves] at hb
    split at hb
    · rename_i hp
      rw [List.mem_singleton.1 hb]
      exact hp
    · cases hb
  | .custom f, b, hb => by
    rw [Addition.leaves, List.mem_singleton] at hb
    rw [hb]
    trivial
  | .chain as, b, hb => by
    rw [Addition.leaves] at hb
    exact leavesOf_added as b hb

theorem leavesOf_added : ∀ as : List Addition, ∀ b ∈ leavesOf as, b.IsAdded
  | [], b, hb => by cases hb
  | a :: as, b, hb => by
    rw [leavesOf, List.mem_append] at hb
    rcases hb with hb | hb
    · exact leaves_added a b hb
    · exact leavesOf_added as b hb

end

/-- **A chain of chains does what the flat chain of its leaves does.** Whatever is added to a chain
and to the chains in it, to any depth:

* it redacts every text as the chain does to which the rules that are patterns and the redactors of
  other kinds are added in the same order, without a chain among them;
* none of these is refused, so that the flat chain has as many redactors;
* a rule that is no pattern is refused as such, wherever it is added, and the chain keeps its size
  and does what it did;
* if each redactor of the chain, or each of its leaves, leaves the text alone at its turn, then so
  does the chain. -/
theorem nested_chain_flattens (as : List Addition) :
    (∀ text, (made as).redact text = (made (leavesOf as)).redact text) ∧
    (∀ a ∈ leavesOf as, a.IsAdded ∧ ∀ c, (a.add c).1 = .ok ()) ∧
    (made (leavesOf as)).size = (leavesOf as).length ∧
    (∀ pattern replacement c, Pattern.compile? pattern = none →
      ((Addition.rule pattern replacement).add c).1 =
          .error (.pattern pattern "not a pattern") ∧
        ((Addition.rule pattern replacement).add c).2.size = c.size ∧
        ∀ text, ((Addition.rule pattern replacement).add c).2.redact text = c.redact text) ∧
    (∀ text, Silent (made as).redactors text ∨ Silent (made (leavesOf as)).redactors text →
      (made as).redact text = text) := by
  have hadded := leavesOf_added as
  have hflat : ∀ text, (made as).redact text = (made (leavesOf as)).redact text := by
    intro text
    rw [redact, redact, ← made_leaves, redactAll_leavesAll]
  refine ⟨hflat, ?_, ?_, ?_, ?_⟩
  · intro a ha
    exact ⟨hadded a ha, (hadded a ha).accepted⟩
  · exact size_made hadded
  · intro pattern replacement c hp
    rw [add_rule_none hp]
    exact ⟨rfl, rfl, fun _ => rfl⟩
  · rintro text (hsilent | hsilent)
    · exact redactAll_silent hsilent
    · rw [hflat]
      exact redactAll_silent hsilent

/-- Two rules, of which the second stands in a chain of its own behind one that is no pattern. -/
def refusing : List Addition :=
  [.rule "cat" "dog", .chain [.rule "(unclosed" "x", .rule "dog" "bird"]]

/-- The rule in front of the second is refused, and the flat chain does the same without it. -/
theorem nested_chain_flattens_refused :
    (made refusing).redact "a cat" =
        (made [.rule "cat" "dog", .rule "dog" "bird"]).redact "a cat" ∧
      ((Addition.rule "(unclosed" "x").add empty).1 =
        .error (.pattern "(unclosed" "not a pattern") ∧
      Silent (made refusing).redactors "a cow" ∧ (made refusing).redact "a cow" = "a cow" := by
  obtain ⟨hflat, -, -, hrefused, hsilent⟩ := nested_chain_flattens refusing
  have hcow : Silent (made refusing).redactors "a cow" := silent_iff.2 (by decide)
  exact ⟨hflat "a cat", (hrefused "(unclosed" "x" empty (by decide)).1, hcow,
    hsilent "a cow" (.inl hcow)⟩

end RedactorChain

end Logging
