import Mathlib.Data.List.Basic
import Logging.Pattern.Match

/-!
# Where matches end

The ends of a match are known in closed form for terms that spell a text out, character by character
or in greedy runs.

* `Spot.pass`: the place behind some characters. `Spot.passWord?`: the place behind one character of
  each of some sets.
* `Term.word`, `Term.behind`, `Term.choice`: terms that take one character of each set, another term
  behind that, and one of several words.
* `head?_ends_cat`: **the preferred end of one term behind another** is the first end of the second
  term behind an end of the first, in order of preference.
* `ends_star_set`, `ends_plus_set`: a greedy run prefers to be as long as possible.
-/

namespace Logging.Pattern

/-! ## Places further on -/

/-- Whether a text begins with one character of each of some sets. -/
def fits : List CharSet → List Char → Bool
  | [], _ => true
  | _ :: _, [] => false
  | s :: w, c :: cs => s.contains c && fits w cs

namespace Spot

/-- The place behind some characters. -/
def pass (s : Spot) (taken : List Char) : Spot := taken.foldl (fun s c => s.take c s.rest.tail) s

/-- The place behind one character of a set. -/
def step? (s : Spot) (cs : CharSet) : Option Spot :=
  match s.rest with
  | [] => none
  | c :: rest => if cs.contains c then some (s.take c rest) else none

/-- The place behind one character of each set. -/
def passWord? (s : Spot) (w : List CharSet) : Option Spot := w.foldlM step? s

variable {s : Spot} {cs rest : List Char}

@[simp] theorem pass_nil (s : Spot) : s.pass [] = s := rfl

theorem pass_cons (s : Spot) (c : Char) (cs : List Char) :
    s.pass (c :: cs) = (s.take c s.rest.tail).pass cs := rfl

theorem pass_append (s : Spot) (as bs : List Char) : s.pass (as ++ bs) = (s.pass as).pass bs :=
  List.foldl_append

@[simp] theorem rest_mark (s : Spot) (m : Nat) : (s.mark m).rest = s.rest := rfl

@[simp] theorem groups_mark (s : Spot) (m : Nat) : (s.mark m).groups = s.groups := rfl

theorem index_pass (s : Spot) (cs : List Char) : (s.pass cs).index = s.index + cs.length := by
  induction cs generalizing s with
  | nil => rfl
  | cons c cs ih =>
    rw [pass_cons, ih, List.length_cons]
    show s.index + 1 + cs.length = s.index + (cs.length + 1)
    omega

theorem groups_pass (s : Spot) (cs : List Char) : (s.pass cs).groups = s.groups := by
  induction cs generalizing s with
  | nil => rfl
  | cons c cs ih => rw [pass_cons, ih]; rfl

theorem rest_pass (h : s.rest = cs ++ rest) : (s.pass cs).rest = rest := by
  induction cs generalizing s with
  | nil => exact h
  | cons c cs ih => rw [pass_cons]; exact ih (by rw [h]; rfl)

/-- Behind a character no choice has been made yet, and the character is the one in front. -/
theorem pass_snoc (s : Spot) (cs : List Char) (c : Char) :
    (s.pass (cs ++ [c])).previous = some c ∧ (s.pass (cs ++ [c])).marks = [] := by
  rw [pass_append]
  exact ⟨rfl, rfl⟩

theorem previous_pass (s : Spot) (h : cs ≠ []) : (s.pass cs).previous = cs.getLast? := by
  obtain ⟨cs, c, rfl⟩ := (List.eq_nil_or_concat' cs).resolve_left h
  rw [(pass_snoc s cs c).1, List.getLast?_append_cons, List.getLast?_singleton]

theorem marks_pass (s : Spot) (h : cs ≠ []) : (s.pass cs).marks = [] := by
  obtain ⟨cs, c, rfl⟩ := (List.eq_nil_or_concat' cs).resolve_left h
  exact (pass_snoc s cs c).2

theorem passWord?_cons (s : Spot) (cs : CharSet) (w : List CharSet) :
    s.passWord? (cs :: w) = (s.step? cs).bind (·.passWord? w) :=
  List.foldlM_cons

theorem passWord?_append (s : Spot) (v w : List CharSet) :
    s.passWord? (v ++ w) = (s.passWord? v).bind (·.passWord? w) :=
  List.foldlM_append

theorem passWord?_eq (w : List CharSet) (s : Spot) :
    s.passWord? w = if fits w s.rest then some (s.pass (s.rest.take w.length)) else none := by
  induction w generalizing s with
  | nil => rfl
  | cons cs w ih =>
    rw [passWord?_cons]
    cases hr : s.rest with
    | nil => simp [step?, fits, hr]
    | cons c rest =>
      have hrest : (s.take c rest).rest = rest := rfl
      by_cases hc : cs.contains c = true
      · simp only [step?, hr, hc, if_true, fits, Bool.true_and, Option.bind_some, ih, hrest]
        rw [List.length_cons, List.take_succ_cons, pass_cons, hr]
        rfl
      · simp [step?, fits, hr, hc]

theorem passWord?_mark {w : List CharSet} (h : w ≠ []) (s : Spot) (m : Nat) :
    (s.mark m).passWord? w = s.passWord? w := by
  cases w with
  | nil => exact absurd rfl h
  | cons cs w => rfl

end Spot

/-! ## Terms -/

namespace Term

/-- One character of each set. -/
def word : List CharSet → Term
  | [] => empty
  | [cs] => set cs
  | cs :: w => cat (set cs) (word w)

/-- One character of each set, and then another term. -/
def behind (w : List CharSet) (t : Term) : Term := w.foldr (fun cs t => cat (set cs) t) t

/-- The first of some words that leads to a match, or else another term. -/
def choice (mark : Nat) (ws : List (List CharSet)) (last : Term) : Term :=
  match ws with
  | [] => last
  | w :: ws => alt mark (word w) (choice (mark + 1) ws last)

variable {s : Spot} {m : Nat} {cs : CharSet}

theorem ends_cat_of_single {a b : Term} {e : Spot} (h : a.ends s = [e]) :
    (cat a b).ends s = b.ends e := by
  rw [ends, h]

theorem ends_cat_of_nil {a b : Term} (h : a.ends s = []) : (cat a b).ends s = [] := by
  rw [ends, h]
  rfl

theorem head?_distinct (es : List Spot) : (distinct es).head? = es.head? := by
  cases es <;> rfl

/-- **The preferred end of one term behind another.** -/
theorem head?_ends_cat (a b : Term) (s : Spot) :
    ((cat a b).ends s).head? = (a.ends s).findSome? fun e => (b.ends e).head? := by
  rw [ends]
  split
  · rename_i e he
    rw [he, List.findSome?_singleton]
  · rw [head?_distinct, List.head?_flatMap]

theorem ends_set (cs : CharSet) (s : Spot) : (set cs).ends s = (s.step? cs).toList := by
  unfold ends Spot.step?
  cases s.rest with
  | nil => rfl
  | cons c rest => by_cases hc : cs.contains c = true <;> simp [hc]

theorem ends_cat_set (cs : CharSet) (t : Term) (s : Spot) :
    (cat (set cs) t).ends s = (s.step? cs).elim [] t.ends := by
  have h := ends_set cs s
  cases he : s.step? cs with
  | none => rw [he] at h; exact ends_cat_of_nil h
  | some e => rw [he] at h; exact ends_cat_of_single h

theorem ends_behind (w : List CharSet) (t : Term) (s : Spot) :
    (behind w t).ends s = (s.passWord? w).elim [] t.ends := by
  induction w generalizing s with
  | nil => rfl
  | cons cs w ih =>
    show (cat (set cs) (behind w t)).ends s = _
    rw [ends_cat_set, Spot.passWord?_cons]
    cases s.step? cs with
    | none => rfl
    | some e => exact ih e

theorem ends_word {w : List CharSet} (h : w ≠ []) (s : Spot) :
    (word w).ends s = (s.passWord? w).toList := by
  induction w generalizing s with
  | nil => exact absurd rfl h
  | cons cs w ih =>
    cases w with
    | nil =>
      show (set cs).ends s = _
      rw [ends_set, Spot.passWord?_cons]
      cases s.step? cs <;> rfl
    | cons cs' w =>
      show (cat (set cs) (word (cs' :: w))).ends s = _
      rw [ends_cat_set, Spot.passWord?_cons]
      cases s.step? cs with
      | none => rfl
      | some e => exact ih (by simp) e

theorem ends_alt {a b : Term} (h : m ∉ s.marks) :
    (alt m a b).ends s = a.ends (s.mark m) ++ b.ends (s.mark m) := by
  rw [ends, if_neg (by simpa using h)]

/-- The ends of a choice between words, in order. -/
theorem ends_choice {ws : List (List CharSet)} {last : Term} (hws : ∀ w ∈ ws, w ≠ [])
    (hlast : ∀ s m, last.ends (Spot.mark s m) = last.ends s) (hm : ∀ i, m ≤ i → i ∉ s.marks) :
    (choice m ws last).ends s = ws.filterMap s.passWord? ++ last.ends s := by
  induction ws generalizing s m with
  | nil => rfl
  | cons w ws ih =>
    have hw := hws w List.mem_cons_self
    have hnext : ∀ i, m + 1 ≤ i → i ∉ (s.mark m).marks := by
      intro i hi hmem
      rcases List.mem_cons.1 hmem with rfl | hmem
      · omega
      · exact hm i (by omega) hmem
    have hmarked : ws.filterMap (s.mark m).passWord? = ws.filterMap s.passWord? :=
      List.filterMap_congr fun v hv => Spot.passWord?_mark (hws v (List.mem_cons_of_mem _ hv)) s m
    show (alt m (word w) (choice (m + 1) ws last)).ends s = _
    rw [ends_alt (hm m (Nat.le_refl m)), ends_word hw, Spot.passWord?_mark hw, ih
      (fun v hv => hws v (List.mem_cons_of_mem _ hv)) hnext, hmarked, hlast]
    cases hs : s.passWord? w <;> simp [hs]

/-- A character that may be left out in front of a word, where the word begins with none such. -/
theorem ends_optional {w : List CharSet} (hw : w ≠ []) (hm : m ∉ s.marks)
    (hcs : ∀ c rest, cs.contains c = true → fits w (c :: rest) = false) :
    (cat (alt m (set cs) empty) (word w)).ends s = [cs :: w, w].filterMap s.passWord? := by
  have halt : (alt m (set cs) empty).ends s = (s.step? cs).toList ++ [s.mark m] := by
    rw [ends_alt hm, ends_set]
    rfl
  have hword := ends_word hw (s.mark m)
  rw [Spot.passWord?_mark hw] at hword
  have hcons := s.passWord?_cons cs w
  cases he : s.step? cs with
  | none =>
    rw [he] at halt hcons
    rw [ends_cat_of_single halt, hword]
    cases hs : s.passWord? w <;> simp [hcons, hs]
  | some e =>
    have hnone : s.passWord? w = none := by
      rw [Spot.passWord?_eq]
      unfold Spot.step? at he
      cases hr : s.rest with
      | nil => simp [hr] at he
      | cons c rest =>
        have hc : cs.contains c = true := by
          by_contra hc
          simp [hr, hc] at he
        simp [hcs c rest hc]
    rw [he] at halt hcons
    have hends : (cat (alt m (set cs) empty) (word w)).ends s =
        distinct ([e, s.mark m].flatMap (word w).ends) := by
      rw [ends, halt]
      rfl
    rw [hends, List.flatMap_cons, List.flatMap_cons, hword, hnone, ends_word hw e]
    cases h : e.passWord? w <;> simp [hcons, hnone, h, distinct]

/-! ## Runs -/

/-- What is in front of the end of a run belongs to the run. -/
def Within (cs : CharSet) (e : Spot) : Prop := ∃ c, e.rest.head? = some c ∧ cs.contains c = true

theorem rounds_set (cs : CharSet) (m fuel : Nat) (s : Spot) (found : List Spot) (seen : List Nat)
    (hfuel : s.rest.length < fuel) (hm : m ∉ s.marks) (hseen : ∀ i ∈ seen, i < s.index) :
    ∃ es, (rounds (set cs).ends m true fuel (found, seen) s).1 =
      es ++ (s.pass (s.rest.takeWhile cs.contains)).mark m :: found ∧ ∀ e ∈ es, Within cs e := by
  induction fuel generalizing s seen with
  | zero => omega
  | succ fuel ih =>
    have hnew : s.index ∉ seen := fun h => Nat.lt_irrefl _ (hseen _ h)
    have hguard : ¬ ((s.marks.contains m || seen.contains s.index) = true) := by
      simp [hm, hnew]
    rw [rounds, if_neg hguard]
    simp only [if_true]
    cases hr : s.rest with
    | nil => exact ⟨[], by simp [ends, hr], by simp⟩
    | cons c rest =>
      by_cases hc : cs.contains c = true
      · obtain ⟨es, hes, hwithin⟩ := ih (s.take c rest) (s.index :: seen)
          (by rw [hr, List.length_cons] at hfuel; exact Nat.lt_of_succ_lt_succ hfuel)
          List.not_mem_nil (by
            intro i hi
            show i < s.index + 1
            rcases List.mem_cons.1 hi with rfl | hi
            · omega
            · have := hseen i hi; omega)
        refine ⟨s.mark m :: es, ?_, ?_⟩
        · have hbody : (set cs).ends (s.mark m) = [s.take c rest] := by
            simp [ends, hr, hc]
            rfl
          rw [hbody, List.foldl_cons, List.foldl_nil, hes, List.takeWhile_cons_of_pos hc,
            Spot.pass_cons, hr]
          rfl
        · intro e he
          rcases List.mem_cons.1 he with rfl | he
          · exact ⟨c, by simp [hr], hc⟩
          · exact hwithin e he
      · exact ⟨[], by simp [ends, hr, hc], by simp⟩

/-- **A greedy run** prefers to be as long as possible; its other ends are within the run. -/
theorem ends_star_set (cs : CharSet) (hm : m ∉ s.marks) :
    ∃ es, (star m true (set cs)).ends s = (s.pass (s.rest.takeWhile cs.contains)).mark m :: es ∧
      ∀ e ∈ es, Within cs e := by
  obtain ⟨es, hes, hwithin⟩ := rounds_set cs m (s.rest.length + 1) s [] [] (Nat.lt_succ_self _) hm
    (by simp)
  refine ⟨es.reverse, ?_, fun e he => hwithin e (List.mem_reverse.1 he)⟩
  rw [ends, hes]
  simp

/-- A greedy run of at least one character. -/
theorem ends_plus_set (hne : s.rest.takeWhile cs.contains ≠ []) :
    ∃ es, (cat (set cs) (star m true (set cs))).ends s =
      (s.pass (s.rest.takeWhile cs.contains)).mark m :: es ∧ ∀ e ∈ es, Within cs e := by
  cases hr : s.rest with
  | nil => rw [hr] at hne; exact absurd rfl hne
  | cons c rest =>
    have hc : cs.contains c = true := by
      by_contra hc
      rw [hr, List.takeWhile_cons_of_neg hc] at hne
      exact hne rfl
    have hstep : (cat (set cs) (star m true (set cs))).ends s =
        (star m true (set cs)).ends (s.take c rest) := by
      rw [ends_cat_set]
      simp [Spot.step?, hr, hc]
    rw [hstep, List.takeWhile_cons_of_pos hc, Spot.pass_cons, hr]
    exact ends_star_set cs (s := s.take c rest) List.not_mem_nil

theorem ends_plus_set_nil (h : s.rest.takeWhile cs.contains = []) :
    (cat (set cs) (star m true (set cs))).ends s = [] := by
  rw [ends_cat_set]
  cases hr : s.rest with
  | nil => simp [Spot.step?, hr]
  | cons c rest =>
    have hc : ¬ cs.contains c = true := by
      intro hc
      rw [hr, List.takeWhile_cons_of_pos hc] at h
      cases h
    simp [Spot.step?, hr, hc]

/-- A greedy run of at least one character, and behind it what does not begin within the run. -/
theorem head?_ends_plus_cat {t : Term} (ht : ∀ e, Within cs e → t.ends e = []) :
    ((cat (cat (set cs) (star m true (set cs))) t).ends s).head? =
      if s.rest.takeWhile cs.contains = [] then none
      else (t.ends ((s.pass (s.rest.takeWhile cs.contains)).mark m)).head? := by
  rw [head?_ends_cat]
  split
  · rename_i hrun
    rw [ends_plus_set_nil hrun, List.findSome?_nil]
  · rename_i hrun
    obtain ⟨es, hes, hwithin⟩ := ends_plus_set (m := m) hrun
    have hlater : es.findSome? (fun e => (t.ends e).head?) = none :=
      List.findSome?_eq_none_iff.2 fun e he => by rw [ht e (hwithin e he), List.head?_nil]
    rw [hes, List.findSome?_cons, hlater]
    cases (t.ends _).head? <;> rfl

end Term

end Logging.Pattern
