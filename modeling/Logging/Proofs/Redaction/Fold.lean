import Mathlib.Data.List.Induction
import Logging.Redaction.Chain

/-!
# Chains as folds

A chain hands on what a redactor makes of a text if it is a text of the redactor's own. What a
redactor only points to is left aside, and the next one gets what this one was given. So a chain is
the plain fold of its redactors as far as none of them points to anything but the text that it was
given.

* `fold`: a text after some redactors, each given what the one before has returned.
* `Faithful`: what a redactor points to is the text that it was given. Rules are faithful.
* `redact_eq_fold_of_rules`: a chain that is built by adding rules folds them.
* `redact_eq_fold_iff`: **a chain folds its redactors just as far as they are faithful.**
-/

namespace Logging.Redactor

/-- A text after some redactors, each given what the one before has returned. -/
def fold (rs : List Redactor) (text : String) : String :=
  rs.foldl (fun t r => (r.rewrite t).text) text

/-- What a redactor points to for a text is that text. -/
def Faithful (r : Redactor) (text : String) : Prop :=
  ∀ shown, r.rewrite text = .borrowed shown → shown = text

variable {r : Redactor} {rs : List Redactor} {text : String}

theorem fold_concat (rs : List Redactor) (r : Redactor) (text : String) :
    fold (rs ++ [r]) text = (r.rewrite (fold rs text)).text := by
  simp [fold]

theorem redactAll_append (rs rs' : List Redactor) (text : String) :
    redactAll (rs ++ rs') text = redactAll rs' (redactAll rs text) := by
  induction rs generalizing text with
  | nil => rfl
  | cons r rs ih => rw [List.cons_append, redactAll, redactAll, ih]

/-- The text that is handed on is the one that was returned just for faithful redactors. -/
theorem after_eq_text_iff :
    (r.rewrite text).after text = (r.rewrite text).text ↔ Faithful r text := by
  unfold Faithful
  cases h : r.rewrite text with
  | owned t => simp [Rewrite.after, Rewrite.text]
  | borrowed shown => simp [Rewrite.after, Rewrite.text, eq_comm]

theorem faithful_rule (p : Pattern) (replacement text : String) :
    Faithful (.rule p replacement) text := by
  intro shown h
  rw [rewrite, replace] at h
  split at h
  · cases h
  · exact (Rewrite.borrowed.inj h).symm

/-- Faithful redactors are folded. -/
theorem redactAll_eq_fold (h : ∀ front r, front ++ [r] <+: rs → Faithful r (fold front text)) :
    ∀ front, front <+: rs → redactAll front text = fold front text := by
  intro front hfront
  induction front using List.reverseRecOn with
  | nil => rfl
  | append_singleton front r ih =>
    have hbefore := ih ((List.prefix_append front [r]).trans hfront)
    rw [redactAll_append, hbefore, fold_concat, redactAll, redactAll]
    exact after_eq_text_iff.2 (h front r hfront)

/-- A chain of faithful redactors is their fold. -/
theorem redact_eq_fold (h : ∀ r ∈ rs, ∀ text, Faithful r text) (text : String) :
    (RedactorChain.mk rs).redact text = fold rs text := by
  refine redactAll_eq_fold (fun front r hfront => h r ?_ _) rs (List.prefix_refl rs)
  exact hfront.subset (List.mem_append_right front List.mem_cons_self)

theorem faithful_addRule {c c' : RedactorChain} {pattern replacement : String}
    (hc : ∀ r ∈ c.redactors, ∀ text, Faithful r text)
    (h : c.addRule pattern replacement = .ok c') : ∀ r ∈ c'.redactors, ∀ text, Faithful r text := by
  unfold RedactorChain.addRule RedactorChain.rule at h
  split at h
  · obtain rfl := Except.ok.inj h
    intro r hr text
    rcases List.mem_append.1 hr with hr | hr
    · exact hc r hr text
    · obtain rfl := List.mem_singleton.1 hr
      exact faithful_rule _ replacement text
  · cases h

/-- A chain to which rules have been added folds its redactors if it did so before. -/
theorem redact_eq_fold_of_rules {rules : List (String × String)} {c c' : RedactorChain}
    (hc : ∀ r ∈ c.redactors, ∀ text, Faithful r text)
    (h : rules.foldlM (fun c r => c.addRule r.1 r.2) c = .ok c') (text : String) :
    c'.redact text = fold c'.redactors text := by
  induction rules generalizing c with
  | nil =>
    obtain rfl := Except.ok.inj h
    exact redact_eq_fold hc text
  | cons rule rules ih =>
    rw [List.foldlM_cons] at h
    cases hadd : c.addRule rule.1 rule.2 with
    | error fault => rw [hadd] at h; cases h
    | ok next => rw [hadd] at h; exact ih (faithful_addRule hc hadd) h

/-- The chain for common secrets folds its rules. -/
theorem commonSecrets_eq_fold {c : RedactorChain} (h : RedactorChain.commonSecrets = .ok c)
    (text : String) : c.redact text = fold c.redactors text :=
  redact_eq_fold_of_rules (c := RedactorChain.empty) (fun _ hr => by cases hr) h text

/-- **A chain folds its redactors just as far as they are faithful**: up to each of them it returns
what the fold returns if and only if none of them points to another text than it is given. -/
theorem redact_eq_fold_iff (rs : List Redactor) (text : String) :
    (∀ front, front <+: rs → (RedactorChain.mk front).redact text = fold front text) ↔
      ∀ front r, front ++ [r] <+: rs → Faithful r (fold front text) := by
  refine ⟨fun h front r hfront => ?_, redactAll_eq_fold⟩
  have hbefore : redactAll front text = fold front text :=
    h front ((List.prefix_append front [r]).trans hfront)
  have hbehind : redactAll (front ++ [r]) text = fold (front ++ [r]) text := h _ hfront
  rw [redactAll_append, hbefore, fold_concat, redactAll, redactAll] at hbehind
  exact after_eq_text_iff.1 hbehind

/-- A mask that a redactor only points to is left aside. -/
theorem mask_left_aside :
    (RedactorChain.mk [.custom fun _ => .borrowed "***"]).redact "secret" = "secret" ∧
      fold [.custom fun _ => .borrowed "***"] "secret" = "***" := by
  constructor
  · rw [RedactorChain.redact, redactAll, redactAll, rewrite, Rewrite.after]
  · rw [fold, List.foldl_cons, List.foldl_nil, rewrite, Rewrite.text]

end Logging.Redactor
