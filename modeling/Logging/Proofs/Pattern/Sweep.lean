import Mathlib.Data.List.Basic
import Logging.Pattern.Replace

/-!
# Replacing from left to right

A rule says what a pattern takes from the front of a text, given the character before, and what its
replacement puts there.

* `Rule.sweep`: a text with the rule applied from left to right, each time behind what it has taken.
* `Rule.induction`: induction along a sweep.
* `getD_replaceAll?`: **where a pattern follows a rule, replacing its matches is a sweep.**
-/

namespace Logging.Pattern

/-- What is taken from the front of a text, and what is put there. -/
structure Hit where
  taken : List Char
  put : List Char
  deriving DecidableEq, Repr

/-- What is taken from the front of a text, given the character before, if anything. It is never
empty. -/
structure Rule where
  hit? : Option Char → List Char → Option Hit
  taken_ne_nil : ∀ {p cs h}, hit? p cs = some h → h.taken ≠ []
  taken_front : ∀ {p cs h}, hit? p cs = some h → h.taken <+: cs

/-- The last character of a text, or else the one before it. -/
theorem getLast?_cons_or (p : Option Char) (c : Char) (cs : List Char) :
    (c :: cs).getLast?.or p = cs.getLast?.or (some c) := by
  rw [List.getLast?_cons]
  cases cs.getLast? <;> rfl

theorem getLast?_append_or {a : List Char} (ha : a ≠ []) (p : Option Char) (b : List Char) :
    (a ++ b).getLast?.or p = b.getLast?.or a.getLast? := by
  obtain ⟨x, hx⟩ := Option.isSome_iff_exists.1 (List.getLast?_isSome.2 ha)
  rw [List.getLast?_append, hx]
  cases b.getLast? <;> rfl

namespace Rule

variable {r : Rule} {p : Option Char} {c : Char} {cs taken put rest : List Char}

theorem hit?_nil (r : Rule) (p : Option Char) : r.hit? p [] = none := by
  cases hh : r.hit? p [] with
  | none => rfl
  | some h => exact absurd (List.prefix_nil.1 (r.taken_front hh)) (r.taken_ne_nil hh)

/-- A text with the rule applied from left to right. -/
def sweep (r : Rule) : Option Char → List Char → List Char
  | _, [] => []
  | p, c :: cs =>
    match r.hit? p (c :: cs) with
    | none => c :: r.sweep (some c) cs
    | some h => h.put ++ r.sweep h.taken.getLast? (cs.drop (h.taken.length - 1))
termination_by _ cs => cs.length
decreasing_by all_goals simp; try omega

@[simp] theorem sweep_nil (r : Rule) (p : Option Char) : r.sweep p [] = [] := by rw [sweep]

theorem sweep_copy (h : r.hit? p (c :: cs) = none) :
    r.sweep p (c :: cs) = c :: r.sweep (some c) cs := by
  rw [sweep, h]

theorem sweep_put (h : r.hit? p (taken ++ rest) = some ⟨taken, put⟩) :
    r.sweep p (taken ++ rest) = put ++ r.sweep taken.getLast? rest := by
  obtain ⟨c, cs, rfl⟩ := List.exists_cons_of_ne_nil (r.taken_ne_nil h)
  rw [List.cons_append] at h ⊢
  rw [sweep, h]
  simp

/-- **Induction along a sweep**: a character is copied, or something is put for what is taken. -/
@[elab_as_elim]
theorem induction (r : Rule) {motive : Option Char → List Char → Prop} (nil : ∀ p, motive p [])
    (copy : ∀ p c cs, r.hit? p (c :: cs) = none → motive (some c) cs → motive p (c :: cs))
    (put : ∀ p taken put rest, r.hit? p (taken ++ rest) = some ⟨taken, put⟩ →
      motive taken.getLast? rest → motive p (taken ++ rest))
    (p : Option Char) (cs : List Char) : motive p cs := by
  induction hn : cs.length using Nat.strongRecOn generalizing p cs with
  | ind n ih =>
    cases cs with
    | nil => exact nil p
    | cons c cs =>
      rw [List.length_cons] at hn
      cases hh : r.hit? p (c :: cs) with
      | none => exact copy p c cs hh (ih cs.length (by omega) _ _ rfl)
      | some h =>
        obtain ⟨rest, hrest⟩ := r.taken_front hh
        have hpos := List.length_pos_iff.2 (r.taken_ne_nil hh)
        have hlen := congrArg List.length hrest
        rw [List.length_append, List.length_cons] at hlen
        rw [← hrest] at hh ⊢
        exact put p h.taken h.put rest hh (ih rest.length (by omega) _ _ rfl)

/-- A text in which nothing is taken is copied. -/
theorem sweep_eq_self (h : ∀ p rest, rest <:+ cs → r.hit? p rest = none) (p : Option Char) :
    r.sweep p cs = cs := by
  induction cs generalizing p with
  | nil => exact r.sweep_nil p
  | cons c cs ih =>
    have hnone := h p (c :: cs) (List.suffix_refl _)
    rw [sweep_copy hnone, ih fun p rest hrest => h p rest (hrest.trans (List.suffix_cons c cs))]

/-- A text is swept up to a place that the rule does not look beyond, and from there on. -/
theorem sweep_append {tail : List Char} (h : ∀ p cs, r.hit? p (cs ++ tail) = r.hit? p cs)
    (p : Option Char) (cs : List Char) :
    r.sweep p (cs ++ tail) = r.sweep p cs ++ r.sweep (cs.getLast?.or p) tail := by
  induction p, cs using induction r with
  | nil p => rw [sweep_nil]; rfl
  | copy p c cs hh ih =>
    have htail := h p (c :: cs)
    rw [hh, List.cons_append] at htail
    rw [List.cons_append, sweep_copy htail, sweep_copy hh, ih, getLast?_cons_or, List.cons_append]
  | put p taken put rest hh ih =>
    have htail := h p (taken ++ rest)
    rw [hh, List.append_assoc] at htail
    rw [List.append_assoc, sweep_put htail, sweep_put hh, ih,
      getLast?_append_or (r.taken_ne_nil hh), List.append_assoc]

end Rule

/-! ## Patterns that follow a rule -/

/-- What replaces a match. -/
abbrev filled (p : Pattern) (template : String) (text : List Char) (a b : Spot) : List Char :=
  Template.fill p.names text a b (Template.parse template)

/-- A match from one spot to another takes and puts the same as a hit. -/
structure Lands (p : Pattern) (template : String) (s : Spot) (h : Hit) (e : Spot) : Prop where
  index : e.index = s.index + h.taken.length
  previous : e.previous = h.taken.getLast?
  rest : s.rest = h.taken ++ e.rest
  put : ∀ text, text.drop s.index = s.rest → filled p template text s e = h.put

/-- A pattern with a template matches wherever the rule hits, and does the same there. -/
def Follows (p : Pattern) (template : String) (r : Rule) : Prop :=
  ∀ s : Spot, Option.Rel (Lands p template s) (r.hit? s.previous s.rest) (p.term.matchAt? s)

variable {p : Pattern} {template : String} {r : Rule}

theorem Follows.miss (hr : Follows p template r) {s : Spot} (h : r.hit? s.previous s.rest = none) :
    p.term.matchAt? s = none := by
  have hs := hr s
  rw [h] at hs
  cases hm : p.term.matchAt? s with
  | none => rfl
  | some e => rw [hm] at hs; cases hs

theorem Follows.hit (hr : Follows p template r) {s : Spot} {h : Hit}
    (hh : r.hit? s.previous s.rest = some h) :
    ∃ e, p.term.matchAt? s = some e ∧ Lands p template s h e := by
  have hs := hr s
  rw [hh] at hs
  cases hm : p.term.matchAt? s with
  | none => rw [hm] at hs; cases hs
  | some e =>
    rw [hm] at hs
    cases hs with
    | some hlands => exact ⟨e, rfl, hlands⟩

/-- A text without a match is copied. -/
theorem Follows.findFrom?_none (hr : Follows p template r) {cs : List Char} :
    ∀ {i : Nat} {prev : Option Char}, p.term.findFrom? i prev cs = none → r.sweep prev cs = cs := by
  induction cs with
  | nil => intro i prev _; exact r.sweep_nil prev
  | cons c cs ih =>
    intro i prev h
    cases hh : r.hit? prev (c :: cs) with
    | none =>
      rw [Term.findFrom?] at h
      simp only [hr.miss (s := ⟨i, prev, c :: cs, [], []⟩) hh] at h
      rw [Rule.sweep_copy hh, ih h]
    | some hit =>
      obtain ⟨e, he, -⟩ := hr.hit (s := ⟨i, prev, c :: cs, [], []⟩) hh
      rw [Term.findFrom?] at h
      simp only [he] at h
      cases h

/-- What is in front of the first match is copied, and the match is replaced. -/
theorem Follows.findFrom?_some (hr : Follows p template r) {cs : List Char} {a b : Spot} :
    ∀ {i : Nat} {prev : Option Char}, p.term.findFrom? i prev cs = some (a, b) →
      ∃ skipped taken, cs = skipped ++ (taken ++ b.rest) ∧ taken ≠ [] ∧
        a.index = i + skipped.length ∧ a.rest = taken ++ b.rest ∧
        b.index = a.index + taken.length ∧
        ∀ text, text.drop a.index = a.rest → r.sweep prev cs =
          skipped ++ (filled p template text a b ++ r.sweep b.previous b.rest) := by
  induction cs with
  | nil =>
    intro i prev h
    rw [Term.findFrom?] at h
    simp only [hr.miss (s := ⟨i, prev, [], [], []⟩) (r.hit?_nil prev), Option.map_none] at h
    cases h
  | cons c cs ih =>
    intro i prev h
    rw [Term.findFrom?] at h
    cases hh : r.hit? prev (c :: cs) with
    | none =>
      simp only [hr.miss (s := ⟨i, prev, c :: cs, [], []⟩) hh] at h
      obtain ⟨skipped, taken, rfl, hne, hindex, hrest, hend, hsweep⟩ := ih h
      refine ⟨c :: skipped, taken, rfl, hne, ?_, hrest, hend, fun text htext => ?_⟩
      · rw [hindex, List.length_cons]; omega
      · rw [Rule.sweep_copy hh, hsweep text htext, List.cons_append]
    | some hit =>
      obtain ⟨e, he, hlands⟩ := hr.hit (s := ⟨i, prev, c :: cs, [], []⟩) hh
      simp only [he, Option.some.injEq, Prod.mk.injEq] at h
      obtain ⟨rfl, rfl⟩ := h
      refine ⟨[], hit.taken, hlands.rest, r.taken_ne_nil hh, rfl, hlands.rest, hlands.index,
        fun text htext => ?_⟩
      have hput : r.sweep prev (c :: cs) = hit.put ++ r.sweep hit.taken.getLast? e.rest := by
        have htaken : c :: cs = hit.taken ++ e.rest := hlands.rest
        rw [htaken] at hh ⊢
        exact Rule.sweep_put hh
      rw [hput, hlands.put text htext, hlands.previous, List.nil_append]

/-- The matches from a spot on, replaced. -/
theorem Follows.splice_eq (hr : Follows p template r) (text : List Char) (fuel : Nat) (s : Spot)
    (after : Bool) (hfuel : s.rest.length < fuel) (htext : text.drop s.index = s.rest) :
    splice text (filled p template text) s.index (matchesFrom p.term fuel s after) =
      r.sweep s.previous s.rest := by
  induction fuel generalizing s after with
  | zero => omega
  | succ fuel ih =>
    rw [matchesFrom]
    cases hfind : p.term.find? s with
    | none =>
      have hnext : next? p.term s after = none := by rw [next?, hfind]
      rw [hnext]
      show text.drop s.index = _
      rw [htext, hr.findFrom?_none hfind]
    | some ab =>
      obtain ⟨a, b⟩ := ab
      obtain ⟨skipped, taken, hcs, hne, hindex, hrest, hend, hsweep⟩ := hr.findFrom?_some hfind
      have hpos := List.length_pos_iff.2 hne
      have hnext : next? p.term s after = some (a, b) := by
        have hmoved : ¬ b.index = s.index := by omega
        rw [next?, hfind]
        simp [hmoved]
      have ha : text.drop a.index = a.rest := by
        rw [hindex, ← List.drop_drop, htext, hcs, List.drop_left, hrest]
      have hb : text.drop b.index = b.rest := by
        rw [hend, ← List.drop_drop, ha, hrest, List.drop_left]
      have hlen := congrArg List.length hcs
      rw [List.length_append, List.length_append] at hlen
      have hskip : (text.drop s.index).take (a.index - s.index) = skipped := by
        rw [htext, hcs, hindex, Nat.add_sub_cancel_left, List.take_left]
      rw [hnext]
      show (text.drop s.index).take (a.index - s.index) ++ filled p template text a b ++ splice text
        (filled p template text) b.index (matchesFrom p.term fuel b true) = _
      rw [ih b true (by omega) hb, hskip, List.append_assoc, ← hsweep text ha]

/-- **Replacing the matches of a pattern that follows a rule is a sweep.** -/
theorem Follows.getD_replaceAll? (hr : Follows p template r) (text : String) :
    (p.replaceAll? template text).getD text = String.ofList (r.sweep none text.toList) := by
  have hsplice := hr.splice_eq text.toList (text.toList.length + 2) (.start text.toList) false
    (by show text.toList.length < _; omega) rfl
  rw [replaceAll?]
  simp only [allMatches]
  split
  · rename_i hnone
    rw [hnone] at hsplice
    have hcopy : text.toList = r.sweep none text.toList := hsplice
    rw [← hcopy, String.ofList_toList, Option.getD_none]
  · rw [Option.getD_some]
    exact congrArg String.ofList hsplice

end Logging.Pattern
