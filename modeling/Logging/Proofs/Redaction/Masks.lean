import Mathlib.Data.List.Chain
import Mathlib.Data.List.Pairwise
import Logging.Proofs.Redaction.Hits

/-!
# What the rules for secrets have in common

All three rules begin at the edge of a word, with one of a few letters, and leave asterisks behind.
So nothing begins in the middle of a name, of the word `bearer` or of an access key, and what
stands there after a sweep stood there before it.

* `initials`: the letters that a match may begin with. `Tight`: a text in which nothing begins.
* `Masks`: what the rules have in common; `masks_assigned`, `masks_bearer`, `masks_accessKey`.
* `Masks.copies`: **a tight text behind a copied character has been copied as well.**
-/

namespace Logging.Secret

open Pattern

/-! ## Where matches begin -/

/-- The letters that a match, or what replaces it, may begin with. -/
def initials : List Char := "pPsSſtTaAbB".toList

theorem isWord_of_initial {c : Char} (hc : c ∈ initials) : Text.isWord c = true := by
  have halike : ∀ c ∈ initials, ∃ x ∈ "pstab".toList, Text.Alike c x := by decide
  have hletters : ∀ x ∈ "pstab".toList, Text.isAsciiLetter x = true := by decide
  obtain ⟨x, hx, hcx⟩ := halike c hc
  exact Text.isWord_of_alike (hletters x hx) hcx

theorem token_of_initial : ∀ c ∈ initials, token.contains c = true := by decide

theorem notMem_initials_of_space {c : Char} (h : Text.isSpace c = true) : c ∉ initials := by
  intro hc
  have hnone := token_of_space h
  rw [token_of_initial c hc] at hnone
  cases hnone

theorem solid_of_initial {c : Char} (hc : c ∈ initials) : solid.contains c = true :=
  solid_of_token (token_of_initial c hc)

theorem notMem_initials_of_stop {c : Char} (h : solid.contains c = false) : c ∉ initials := by
  intro hc
  rw [solid_of_initial hc] at h
  cases h

/-- Nothing begins between two characters: the first is one of a word, or the second no initial. -/
def Joined (x y : Char) : Prop := Text.isWord x = true ∨ y ∉ initials

instance (x y : Char) : Decidable (Joined x y) := inferInstanceAs (Decidable (_ ∨ _))

/-- A text in which nothing begins, its first character apart. -/
abbrev Tight (cs : List Char) : Prop := cs.IsChain Joined

/-- What the rules have in common. -/
structure Masks (r : Rule) : Prop where
  outside : ∀ {p cs h}, r.hit? p cs = some h → inWord p = false
  taken_initial : ∀ {p cs h}, r.hit? p cs = some h → ∃ c ∈ initials, h.taken.head? = some c
  put_initial : ∀ {p cs h}, r.hit? p cs = some h → ∃ c ∈ initials, h.put.head? = some c
  put_tight : ∀ {p cs h}, r.hit? p cs = some h → Tight h.put
  put_last : ∀ {p cs h}, r.hit? p cs = some h → h.put.getLast? = some '*'
  /-- What begins right behind a match begins at the edge of a word. -/
  parted : ∀ {p taken put rest}, r.hit? p (taken ++ rest) = some ⟨taken, put⟩ →
    ∀ c ∈ initials, rest.head? = some c → inWord taken.getLast? = false

namespace Masks

variable {r : Rule} {p : Option Char} {c : Char} {cs w : List Char}

theorem hit?_of_inWord (hr : Masks r) (hp : inWord p = true) : r.hit? p cs = none := by
  cases hh : r.hit? p cs with
  | none => rfl
  | some h => rw [hr.outside hh] at hp; cases hp

theorem hit?_of_notMem (hr : Masks r) (hc : c ∉ initials) : r.hit? p (c :: cs) = none := by
  cases hh : r.hit? p (c :: cs) with
  | none => rfl
  | some h =>
    obtain ⟨x, hx, hhead⟩ := hr.taken_initial hh
    obtain ⟨taken, htaken⟩ := List.head?_eq_some_iff.1 hhead
    have hfront := r.taken_front hh
    rw [htaken, List.cons_prefix_cons] at hfront
    exact absurd (hfront.1 ▸ hx) hc

/-- What no match begins with is copied. -/
theorem sweep_cons (hr : Masks r) (hc : c ∉ initials) (p : Option Char) (cs : List Char) :
    r.sweep p (c :: cs) = c :: r.sweep (some c) cs :=
  Rule.sweep_copy (hr.hit?_of_notMem hc)

/-- White space stays where it is, as far as a text begins with it. -/
theorem stops_sweep (hr : Masks r) (h : Stops solid.contains cs) (p : Option Char) :
    Stops solid.contains (r.sweep p cs) := by
  cases cs with
  | nil => rwa [Rule.sweep_nil]
  | cons c cs =>
    rw [hr.sweep_cons (notMem_initials_of_stop (h c rfl))]
    exact h

/-- What is in front of white space does not matter for what is behind it. -/
theorem sweep_stops (hr : Masks r) (h : Stops solid.contains cs) (p p' : Option Char) :
    r.sweep p cs = r.sweep p' cs := by
  cases cs with
  | nil => rw [Rule.sweep_nil, Rule.sweep_nil]
  | cons c cs =>
    have hc := notMem_initials_of_stop (h c rfl)
    rw [hr.sweep_cons hc, hr.sweep_cons hc]

/-- A text in which no match may begin is copied. -/
theorem sweep_of_notMem (hr : Masks r) (h : ∀ c ∈ cs, c ∉ initials) (p : Option Char) :
    r.sweep p cs = cs := by
  refine Rule.sweep_eq_self (fun p rest hrest => ?_) p
  cases rest with
  | nil => exact r.hit?_nil p
  | cons c rest => exact hr.hit?_of_notMem (h c (hrest.subset List.mem_cons_self))

/-- **A tight text behind a copied character has been copied as well.** -/
theorem copies (hr : Masks r) (hw : Tight (c :: w)) (h : w <+: r.sweep (some c) cs) :
    ∃ rest, cs = w ++ rest ∧ r.sweep (some c) cs = w ++ r.sweep (c :: w).getLast? rest := by
  induction w generalizing c cs with
  | nil => exact ⟨cs, rfl, rfl⟩
  | cons y w ih =>
    obtain ⟨hjoined, htight⟩ := List.isChain_cons_cons.1 hw
    cases cs with
    | nil =>
      rw [Rule.sweep_nil] at h
      cases List.prefix_nil.1 h
    | cons d cs =>
      cases hh : r.hit? (some c) (d :: cs) with
      | none =>
        rw [Rule.sweep_copy hh] at h ⊢
        obtain ⟨rfl, hfront⟩ := List.cons_prefix_cons.1 h
        obtain ⟨rest, rfl, hsweep⟩ := ih htight hfront
        exact ⟨rest, rfl, by rw [hsweep, List.getLast?_cons_cons]; rfl⟩
      | some hit =>
        -- Something would begin between the two characters.
        exfalso
        obtain ⟨x, hx, hhead⟩ := hr.put_initial hh
        obtain ⟨put, hput⟩ := List.head?_eq_some_iff.1 hhead
        obtain ⟨rest, hrest⟩ := r.taken_front hh
        have hhit : r.hit? (some c) (hit.taken ++ rest) = some ⟨hit.taken, hit.put⟩ := by
          rw [hrest, hh]
        rw [← hrest, Rule.sweep_put hhit, hput, List.cons_append, List.cons_prefix_cons] at h
        have hout := hr.outside hh
        rcases hjoined with hc | hy
        · exact Bool.false_ne_true (hout.symm.trans hc)
        · exact hy (h.1 ▸ hx)

end Masks

/-! ## Words -/

theorem tight_of_forall₂ {as bs : List Char} (h : List.Forall₂ Text.Alike as bs)
    (hbs : bs.IsChain fun x y => Text.isAsciiLetter x = true ∨
      ∀ c ∈ y :: Text.otherCases y, c ∉ initials) : Tight as := by
  induction h with
  | nil => exact .nil
  | cons hax h ih =>
    cases h with
    | nil => exact .singleton _
    | cons hby h =>
      obtain ⟨hxy, hbs⟩ := List.isChain_cons_cons.1 hbs
      refine .cons_cons ?_ (ih hbs)
      rcases hxy with hx | hy
      · exact .inl (Text.isWord_of_alike hx hax)
      · exact .inr (hy _ (List.mem_cons.2 hby))

/-- Nothing begins within a name or within the word `bearer`. -/
theorem tight_of_spells {cs : List Char} {w : String} (hw : w ∈ "bearer" :: names)
    (h : Spells cs w) : Tight cs := by
  have hwords : ∀ w ∈ "bearer" :: names, w.toList.IsChain fun x y =>
      Text.isAsciiLetter x = true ∨ ∀ c ∈ y :: Text.otherCases y, c ∉ initials := by decide
  exact tight_of_forall₂ h (hwords w hw)

theorem tight_append {a b : List Char} (ha : Tight a) (hb : Tight b)
    (h : ∀ c ∈ initials, b.head? ≠ some c) : Tight (a ++ b) :=
  List.isChain_append.2 ⟨ha, hb, fun _ _ y hy => .inr fun hc => h y hc hy⟩

theorem tight_of_forall {cs : List Char} (h : ∀ x ∈ cs, ∀ y ∈ cs, Joined x y) : Tight cs :=
  (List.pairwise_of_forall_mem_list h).isChain

/-- A name with what replaces its value. -/
theorem IsName.tight {name : List Char} (h : IsName name) : Tight (name ++ "=***".toList) := by
  obtain ⟨n, hn, hspells⟩ := h
  have hmask : Tight "=***".toList := by decide
  exact tight_append (tight_of_spells (List.mem_cons_of_mem _ hn) hspells) hmask (by decide)

theorem IsName.begins {name : List Char} (h : IsName name) :
    ∃ c ∈ initials, ∃ tail, name = c :: tail := by
  have hheads : ∀ n ∈ names, n.toList ≠ [] ∧
      ∀ x ∈ n.toList.take 1, ∀ c ∈ x :: Text.otherCases x, c ∈ initials := by decide
  obtain ⟨n, hn, hspells⟩ := h
  obtain ⟨hne, hinitials⟩ := hheads n hn
  obtain ⟨x, l, hl⟩ := List.exists_cons_of_ne_nil hne
  unfold Spells at hspells
  rw [hl] at hspells hinitials
  obtain ⟨c, tail, hcx, -, rfl⟩ := List.forall₂_cons_right_iff.1 hspells
  exact ⟨c, hinitials x List.mem_cons_self c (List.mem_cons.2 hcx), tail, rfl⟩

theorem Bearing.begins {cs word gap tok pad rest : List Char}
    (h : Bearing cs word gap tok pad rest) : ∃ c ∈ initials, ∃ tail, word = c :: tail := by
  have hheads : ∀ c ∈ 'b' :: Text.otherCases 'b', c ∈ initials := by decide
  obtain ⟨c, tail, hcx, -, rfl⟩ := List.forall₂_cons_right_iff.1 h.spells
  exact ⟨c, hheads c (List.mem_cons.2 hcx), tail, rfl⟩

theorem Keyed.begins {cs key rest : List Char} (h : Keyed cs key rest) :
    ∃ tail, key = 'A' :: tail := by
  cases key with
  | nil => cases h.length
  | cons c tail =>
    have hc : (CharSet.single 'A').contains c = true := (Bool.and_eq_true_iff.1 h.isKey).1
    have hbounds := Bool.and_eq_true_iff.1 hc
    obtain rfl : 'A' = c :=
      Char.le_antisymm (of_decide_eq_true hbounds.1) (of_decide_eq_true hbounds.2)
    exact ⟨tail, rfl⟩

/-! ## The three rules -/

theorem masks_assigned : Masks assigned where
  outside hh := (assigned_hit.1 hh).1
  taken_initial hh := by
    obtain ⟨-, name, v, rest, h, rfl⟩ := assigned_hit.1 hh
    obtain ⟨c, hc, tail, rfl⟩ := h.isName.begins
    exact ⟨c, hc, rfl⟩
  put_initial hh := by
    obtain ⟨-, name, v, rest, h, rfl⟩ := assigned_hit.1 hh
    obtain ⟨c, hc, tail, rfl⟩ := h.isName.begins
    exact ⟨c, hc, rfl⟩
  put_tight hh := by
    obtain ⟨-, name, v, rest, h, rfl⟩ := assigned_hit.1 hh
    exact h.isName.tight
  put_last hh := by
    obtain ⟨-, name, v, rest, h, rfl⟩ := assigned_hit.1 hh
    exact List.getLast?_append_of_ne_nil name (by decide : "=***".toList ≠ [])
  parted := by
    intro p taken put rest hh c hc hhead
    obtain ⟨-, name, v, rest', h, heq⟩ := assigned_hit.1 hh
    cases heq
    have htext : rest = rest' := by simpa using h.text
    have hsolid := h.isValue.stops c (htext ▸ hhead)
    rw [solid_of_initial hc] at hsolid
    cases hsolid

theorem masks_bearer : Masks bearer where
  outside hh := (bearer_hit.1 hh).1
  taken_initial hh := by
    obtain ⟨-, word, gap, tok, pad, rest, h, rfl⟩ := bearer_hit.1 hh
    obtain ⟨c, hc, tail, rfl⟩ := h.begins
    exact ⟨c, hc, rfl⟩
  put_initial hh := by
    obtain ⟨-, word, gap, tok, pad, rest, h, rfl⟩ := bearer_hit.1 hh
    exact ⟨'B', by decide, rfl⟩
  put_tight hh := by
    obtain ⟨-, word, gap, tok, pad, rest, h, rfl⟩ := bearer_hit.1 hh
    exact (by decide : Tight "Bearer ***".toList)
  put_last hh := by
    obtain ⟨-, word, gap, tok, pad, rest, h, rfl⟩ := bearer_hit.1 hh
    rfl
  parted := by
    intro p taken put rest hh c hc hhead
    obtain ⟨-, word, gap, tok, pad, rest', h, heq⟩ := bearer_hit.1 hh
    cases heq
    obtain rfl : rest = rest' := by simpa using h.text
    -- The token goes on up to what follows, unless equals signs stand in between.
    rcases List.eq_nil_or_concat' pad with rfl | ⟨signs, x, rfl⟩
    · have htoken := h.padded.stops c hhead
      rw [token_of_initial c hc] at htoken
      cases htoken
    · obtain rfl : x = '=' := h.padded.eq_sign (by simp)
      rw [← List.append_assoc, ← List.append_assoc, ← List.append_assoc, List.getLast?_concat]
      decide

theorem Keyed.isWord {cs key rest : List Char} (h : Keyed cs key rest) :
    ∀ c ∈ key, Text.isWord c = true := by
  intro c hc
  apply isWord_of_keyWord h.isKey
  rwa [← h.length, List.take_length]

theorem masks_accessKey : Masks accessKey where
  outside hh := (accessKey_hit.1 hh).1
  taken_initial hh := by
    obtain ⟨-, key, rest, h, rfl⟩ := accessKey_hit.1 hh
    obtain ⟨tail, rfl⟩ := h.begins
    exact ⟨'A', by decide, rfl⟩
  put_initial hh := by
    obtain ⟨-, key, rest, h, rfl⟩ := accessKey_hit.1 hh
    exact ⟨'A', by decide, rfl⟩
  put_tight hh := by
    obtain ⟨-, key, rest, h, rfl⟩ := accessKey_hit.1 hh
    exact (by decide : Tight "AKIA****************".toList)
  put_last hh := by
    obtain ⟨-, key, rest, h, rfl⟩ := accessKey_hit.1 hh
    rfl
  parted := by
    intro p taken put rest hh c hc hhead
    obtain ⟨-, key, rest', h, heq⟩ := accessKey_hit.1 hh
    cases heq
    obtain rfl : rest = rest' := by simpa using h.text
    have hends : Text.isWord c = false := by
      have hends := h.ends
      rwa [hhead] at hends
    rw [isWord_of_initial hc] at hends
    cases hends

end Logging.Secret
