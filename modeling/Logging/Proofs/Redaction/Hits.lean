import Mathlib.Data.List.TakeWhile
import Logging.Proofs.Redaction.Rules

/-!
# What the rules for secrets take

* `Spells`: a text is a word in any case. `IsName`: it is the name of a secret.
* `Stops`: what follows a run does not go on with it.
* `assigned_hit`: a name, an equals sign and a value, up to white space.
* `bearer_hit`: the word `bearer`, white space, a token and equals signs, as many as there are.
* `accessKey_hit`: an access key that no word goes on with.
-/

namespace Logging.Secret

open Pattern

/-! ## Words in any case -/

/-- A text is a word, up to case. -/
def Spells (cs : List Char) (w : String) : Prop := List.Forall₂ Text.Alike cs w.toList

/-- A text is the name of a secret, up to case. -/
def IsName (cs : List Char) : Prop := ∃ n ∈ names, Spells cs n

theorem forall_of_spells {P : Char → Prop} {cs : List Char} {w : String} (h : Spells cs w)
    (hw : ∀ x ∈ w.toList, ∀ c, Text.Alike c x → P c) : ∀ c ∈ cs, P c := by
  unfold Spells at h
  generalize w.toList = l at h hw
  induction h with
  | nil => exact fun _ hc => by cases hc
  | cons hcx _ ih =>
    intro c hc
    rcases List.mem_cons.1 hc with rfl | hc
    · exact hw _ List.mem_cons_self c hcx
    · exact ih (fun x hx => hw x (List.mem_cons_of_mem _ hx)) c hc

/-- A name of a secret has no equals sign. -/
theorem IsName.equals_notMem {name : List Char} (h : IsName name) : '=' ∉ name := by
  have hnone : ∀ n ∈ names, ∀ x ∈ n.toList, ¬ Text.Alike '=' x := by decide
  obtain ⟨n, hn, hspells⟩ := h
  have hne : ∀ c ∈ name, c ≠ '=' :=
    forall_of_spells hspells fun x hx c hc heq => hnone n hn x hx (heq ▸ hc)
  exact fun hmem => hne _ hmem rfl

theorem fits_letters {l cs : List Char}
    (hl : ∀ x ∈ l, Text.isAsciiLetter x = true ∨ x ∈ ['_', '-', '=']) :
    fits (l.map letter) cs = true ↔ List.Forall₂ Text.Alike (cs.take l.length) l := by
  induction l generalizing cs with
  | nil => simp [fits]
  | cons x l ih =>
    cases cs with
    | nil => simp [fits]
    | cons c cs =>
      have hx : (letter x).contains c = true ↔ Text.Alike c x :=
        contains_letter (hl x List.mem_cons_self)
      have hrest : fits (l.map letter) cs = true ↔ List.Forall₂ Text.Alike (cs.take l.length) l :=
        ih fun y hy => hl y (List.mem_cons_of_mem x hy)
      rw [List.length_cons, List.take_succ_cons, List.forall₂_cons, ← hx, ← hrest]
      exact Bool.and_eq_true_iff

/-- The words that the rules spell out. -/
theorem fits_spelled {w : String} (hw : w ∈ "bearer" :: names) {cs : List Char} :
    fits (spelled w) cs = true ↔ Spells (cs.take (spelled w).length) w := by
  have hplain : ∀ w ∈ "bearer" :: names, ∀ x ∈ w.toList,
      Text.isAsciiLetter x = true ∨ x ∈ ['_', '-', '='] := by decide
  have hlength : (spelled w).length = w.toList.length := List.length_map _
  rw [hlength]
  exact fits_letters (hplain w hw)

theorem Spells.length_eq {cs : List Char} {w : String} (h : Spells cs w) :
    cs.length = (spelled w).length :=
  (List.Forall₂.length_eq h).trans (List.length_map _).symm

/-! ## Runs -/

/-- A text does not go on with a run. -/
def Stops (f : Char → Bool) (cs : List Char) : Prop := ∀ c, cs.head? = some c → f c = false

theorem stops_nil (f : Char → Bool) : Stops f [] := fun _ hc => by cases hc

theorem stops_cons {f : Char → Bool} {x : Char} (hx : f x = false) (cs : List Char) :
    Stops f (x :: cs) := by
  intro c hc
  obtain rfl : x = c := Option.some.inj hc
  exact hx

theorem stops_dropWhile (f : Char → Bool) (cs : List Char) : Stops f (cs.dropWhile f) := by
  have hhead := List.head?_dropWhile_not f cs
  intro c hc
  rwa [hc] at hhead

section Runs

variable {f g : Char → Bool} {run rest cs tail : List Char}

theorem Stops.mono (h : Stops f cs) (hgf : ∀ c, g c = true → f c = true) : Stops g cs := by
  intro c hc
  rw [Bool.eq_false_iff]
  intro hg
  exact Bool.false_ne_true ((h c hc).symm.trans (hgf c hg))

theorem Stops.append (hcs : Stops f cs) (htail : Stops f tail) : Stops f (cs ++ tail) := by
  cases cs with
  | nil => exact htail
  | cons c cs => exact hcs

theorem Stops.of_append (h : Stops f (cs ++ tail)) : Stops f cs := by
  cases cs with
  | nil => exact stops_nil f
  | cons c cs => exact h

theorem Stops.eq_nil (h : Stops f cs) (hall : ∀ c ∈ cs, f c = true) : cs = [] := by
  cases cs with
  | nil => rfl
  | cons c cs => exact absurd ((h c rfl).symm.trans (hall c List.mem_cons_self)) Bool.false_ne_true

theorem takeWhile_stops (h : Stops f rest) : rest.takeWhile f = [] := by
  cases rest with
  | nil => rfl
  | cons c rest => exact List.takeWhile_cons_of_neg (by simp [h c rfl])

theorem dropWhile_stops (h : Stops f rest) : rest.dropWhile f = rest := by
  cases rest with
  | nil => rfl
  | cons c rest => exact List.dropWhile_cons_of_neg (by simp [h c rfl])

theorem takeWhile_run (hrun : ∀ c ∈ run, f c = true) (hrest : Stops f rest) :
    (run ++ rest).takeWhile f = run := by
  rw [List.takeWhile_append_of_pos hrun, takeWhile_stops hrest, List.append_nil]

theorem dropWhile_run (hrun : ∀ c ∈ run, f c = true) (hrest : Stops f rest) :
    (run ++ rest).dropWhile f = rest := by
  rw [List.dropWhile_append_of_pos hrun, dropWhile_stops hrest]

/-- A run and what ends it, within a longer text. -/
theorem split_run (hrun : ∀ c ∈ run, f c = true) (htail : Stops f tail)
    (h : cs ++ tail = run ++ rest) : ∃ rest', cs = run ++ rest' ∧ rest = rest' ++ tail := by
  rcases List.append_eq_append_iff.1 h with ⟨more, rfl, rfl⟩ | ⟨more, rfl, rfl⟩
  · have hmore : more = [] :=
      htail.of_append.eq_nil fun c hc => hrun c (List.mem_append_right cs hc)
    subst hmore
    exact ⟨[], by simp, rfl⟩
  · exact ⟨more, rfl, rfl⟩

end Runs

/-! ## Assignments -/

/-- A value, and what follows it. -/
structure IsValue (v rest : List Char) : Prop where
  ne_nil : v ≠ []
  solid : ∀ c ∈ v, Secret.solid.contains c = true
  stops : Stops Secret.solid.contains rest

/-- A text that begins with an assignment to the name of a secret. -/
structure Assignment (cs name v rest : List Char) : Prop where
  isName : IsName name
  isValue : IsValue v rest
  text : cs = name ++ '=' :: (v ++ rest)

theorem value?_eq_some {cs taken : List Char} : value? cs = some taken ↔
    ∃ v rest, IsValue v rest ∧ cs = '=' :: (v ++ rest) ∧ taken = '=' :: v := by
  constructor
  · intro h
    unfold value? at h
    split at h
    case isFalse => cases h
    rename_i hfits
    cases h
    match cs with
    | [] => cases hfits
    | [_] => simp [fits] at hfits
    | x :: y :: cs =>
      obtain ⟨hx, hy⟩ : (letter '=').contains x = true ∧ solid.contains y = true := by
        simpa [fits] using hfits
      obtain rfl : x = '=' := (contains_sign (by decide)).1 hx
      refine ⟨y :: cs.takeWhile solid.contains, cs.dropWhile solid.contains, ⟨by simp, ?_,
        stops_dropWhile _ _⟩, ?_, rfl⟩
      · exact List.forall_mem_cons.2 ⟨hy, fun _ hc => List.mem_takeWhile_imp hc⟩
      · rw [List.cons_append, List.takeWhile_append_dropWhile]
  · rintro ⟨v, rest, ⟨hne, hsolid, hrest⟩, rfl, rfl⟩
    obtain ⟨y, v, rfl⟩ := List.exists_cons_of_ne_nil hne
    have hsign : (letter '=').contains '=' = true := (contains_sign (by decide)).2 rfl
    have htail : (v ++ rest).takeWhile solid.contains = v :=
      takeWhile_run (fun c hc => hsolid c (List.mem_cons_of_mem y hc)) hrest
    simp [value?, fits, hsign, hsolid y List.mem_cons_self, htail]

theorem nameHit?_eq_some {n : String} (hn : n ∈ names) {cs : List Char} {h : Hit} :
    nameHit? cs n = some h ↔ ∃ name v rest, Spells name n ∧ Assignment cs name v rest ∧
      h = ⟨name ++ '=' :: v, name ++ "=***".toList⟩ := by
  have hword : n ∈ "bearer" :: names := List.mem_cons_of_mem _ hn
  constructor
  · intro hh
    obtain ⟨hfits, taken, htaken, rfl⟩ := nameHit?_some hh
    obtain ⟨v, rest, hvalue, hdrop, rfl⟩ := value?_eq_some.1 htaken
    have hname := (fits_spelled hword).1 hfits
    refine ⟨_, v, rest, hname, ⟨⟨n, hn, hname⟩, hvalue, ?_⟩, rfl⟩
    rw [← hdrop, List.take_append_drop]
  · rintro ⟨name, v, rest, hname, ⟨-, hvalue, rfl⟩, rfl⟩
    have hlength := hname.length_eq
    have htaken : value? ('=' :: (v ++ rest)) = some ('=' :: v) :=
      value?_eq_some.2 ⟨v, rest, hvalue, rfl, rfl⟩
    have hfits : fits (spelled n) (name ++ '=' :: (v ++ rest)) = true := by
      rw [fits_spelled hword, ← hlength, List.take_left]
      exact hname
    rw [nameHit?, if_pos hfits, ← hlength, List.drop_left, List.take_left, htaken, Option.map_some]

theorem takeWhile_name {name : List Char} (h : '=' ∉ name) (cs : List Char) :
    (name ++ '=' :: cs).takeWhile (· != '=') = name := by
  refine takeWhile_run (fun c hc => ?_) fun c hc => ?_
  · have hne : c ≠ '=' := fun heq => h (heq ▸ hc)
    simpa using hne
  · obtain rfl : '=' = c := Option.some.inj hc
    rfl

/-- The name and the value are found in one way only. -/
theorem Assignment.unique {cs name v rest name' v' rest' : List Char}
    (h : Assignment cs name v rest) (h' : Assignment cs name' v' rest') :
    name = name' ∧ v = v' := by
  have hsame := h.text.symm.trans h'.text
  obtain rfl : name = name' := by
    rw [← takeWhile_name h.isName.equals_notMem (v ++ rest), hsame,
      takeWhile_name h'.isName.equals_notMem]
  have hrun := congrArg (List.takeWhile solid.contains)
    (List.cons.inj (List.append_cancel_left hsame)).2
  rw [takeWhile_run h.isValue.solid h.isValue.stops,
    takeWhile_run h'.isValue.solid h'.isValue.stops] at hrun
  exact ⟨rfl, hrun⟩

/-- **What is taken for an assignment**: a name, an equals sign and a value, up to white space. -/
theorem assigned_hit {p : Option Char} {cs : List Char} {h : Hit} : assigned.hit? p cs = some h ↔
    inWord p = false ∧ ∃ name v rest, Assignment cs name v rest ∧
      h = ⟨name ++ '=' :: v, name ++ "=***".toList⟩ := by
  have hedge : assigned.hit? p cs = if inWord p then none else names.findSome? (nameHit? cs) := rfl
  rw [hedge]
  cases hp : inWord p with
  | true => simp
  | false =>
    rw [if_neg Bool.false_ne_true, eq_self, true_and]
    constructor
    · intro hh
      obtain ⟨n, hn, hh⟩ := List.exists_of_findSome?_eq_some hh
      obtain ⟨name, v, rest, -, hassign⟩ := (nameHit?_eq_some hn).1 hh
      exact ⟨name, v, rest, hassign⟩
    · rintro ⟨name, v, rest, hassign, rfl⟩
      -- Some name is found, and by uniqueness it does not matter which one.
      have hfound : (names.findSome? (nameHit? cs)).isSome = true := by
        obtain ⟨n, hn, hspells⟩ := hassign.isName
        have hh := (nameHit?_eq_some hn).2 ⟨name, v, rest, hspells, hassign, rfl⟩
        exact List.findSome?_isSome_iff.2 ⟨n, hn, by rw [hh]; rfl⟩
      obtain ⟨h, hh⟩ := Option.isSome_iff_exists.1 hfound
      obtain ⟨n, hn, hn'⟩ := List.exists_of_findSome?_eq_some hh
      obtain ⟨name', v', rest', -, hassign', rfl⟩ := (nameHit?_eq_some hn).1 hn'
      obtain ⟨rfl, rfl⟩ := hassign.unique hassign'
      exact hh

/-! ## Tokens -/

/-- A token with equals signs behind it, as many as there are. -/
structure Padded (tok pad rest : List Char) : Prop where
  ne_nil : tok ≠ []
  isToken : ∀ c ∈ tok, token.contains c = true
  isPad : ∀ c ∈ pad, (letter '=').contains c = true
  stops : Stops token.contains (pad ++ rest)
  ends : Stops (letter '=').contains rest

/-- A text that begins with the word `bearer`, white space and a token. -/
structure Bearing (cs word gap tok pad rest : List Char) : Prop where
  spells : Spells word "bearer"
  ne_nil : gap ≠ []
  isGap : ∀ c ∈ gap, Text.isSpace c = true
  padded : Padded tok pad rest
  text : cs = word ++ (gap ++ (tok ++ (pad ++ rest)))

theorem padded?_eq_some {cs taken : List Char} : padded? cs = some taken ↔
    ∃ tok pad rest, Padded tok pad rest ∧ cs = tok ++ (pad ++ rest) ∧ taken = tok ++ pad := by
  constructor
  · intro h
    simp only [padded?] at h
    split at h
    case isTrue => cases h
    rename_i hne
    cases h
    refine ⟨_, _, (cs.dropWhile token.contains).dropWhile (letter '=').contains, ⟨hne,
      fun _ hc => List.mem_takeWhile_imp hc, fun _ hc => List.mem_takeWhile_imp hc, ?_,
      stops_dropWhile _ _⟩, ?_, rfl⟩
    · rw [List.takeWhile_append_dropWhile]
      exact stops_dropWhile _ _
    · rw [List.takeWhile_append_dropWhile, List.takeWhile_append_dropWhile]
  · rintro ⟨tok, pad, rest, ⟨hne, htok, hpad, hstops, hends⟩, rfl, rfl⟩
    simp only [padded?, takeWhile_run htok hstops, dropWhile_run htok hstops,
      takeWhile_run hpad hends, if_neg hne]

theorem Padded.eq_sign {tok pad rest : List Char} (h : Padded tok pad rest) {c : Char}
    (hc : c ∈ pad) : c = '=' :=
  (contains_sign (by decide)).1 (h.isPad c hc)

/-- White space in front of a token ends there. -/
theorem Padded.stops_space {tok pad rest : List Char} (h : Padded tok pad rest) (cs : List Char) :
    Stops CharSet.space.contains (tok ++ cs) := by
  obtain ⟨c, tok, rfl⟩ := List.exists_cons_of_ne_nil h.ne_nil
  intro x hx
  obtain rfl : c = x := Option.some.inj hx
  exact isSpace_of_token (h.isToken c List.mem_cons_self)

/-- **What is taken for a token**: the word `bearer`, white space, the token and equals signs, as
many as there are. -/
theorem bearer_hit {p : Option Char} {cs : List Char} {h : Hit} : bearer.hit? p cs = some h ↔
    inWord p = false ∧ ∃ word gap tok pad rest, Bearing cs word gap tok pad rest ∧
      h = ⟨word ++ (gap ++ (tok ++ pad)), "Bearer ***".toList⟩ := by
  have hedge : bearer.hit? p cs = if inWord p then none else tokenHit? cs := rfl
  have hword : "bearer" ∈ "bearer" :: names := List.mem_cons_self
  rw [hedge]
  cases hp : inWord p with
  | true => simp
  | false =>
    rw [if_neg Bool.false_ne_true, eq_self, true_and]
    constructor
    · intro hh
      obtain ⟨hfits, gap, v, hgap, hrun, hv, rfl⟩ := tokenHit?_some hh
      obtain ⟨tok, pad, rest, hpadded, hdrop, rfl⟩ := padded?_eq_some.1 hv
      refine ⟨_, gap, tok, pad, rest, ⟨(fits_spelled hword).1 hfits, hgap, ?_, hpadded, ?_⟩, rfl⟩
      · intro c hc
        rw [hrun] at hc
        exact List.mem_takeWhile_imp hc
      · rw [← hdrop, hrun, List.takeWhile_append_dropWhile, List.take_append_drop]
    · rintro ⟨word, gap, tok, pad, rest, ⟨hspells, hgap, hspace, hpadded, rfl⟩, rfl⟩
      have hlength := hspells.length_eq
      have hfits : fits (spelled "bearer") (word ++ (gap ++ (tok ++ (pad ++ rest)))) = true := by
        rw [fits_spelled hword, ← hlength, List.take_left]
        exact hspells
      have hrun : (gap ++ (tok ++ (pad ++ rest))).takeWhile CharSet.space.contains = gap :=
        takeWhile_run hspace (hpadded.stops_space _)
      have hrest : (gap ++ (tok ++ (pad ++ rest))).dropWhile CharSet.space.contains =
          tok ++ (pad ++ rest) := dropWhile_run hspace (hpadded.stops_space _)
      have hv : padded? (tok ++ (pad ++ rest)) = some (tok ++ pad) :=
        padded?_eq_some.2 ⟨tok, pad, rest, hpadded, rfl, rfl⟩
      rw [tokenHit?, ← hlength, List.drop_left, List.take_left]
      simp only [hfits, hrun, hrest, hgap, hv, ne_eq, not_false_eq_true, and_self, if_true,
        Option.map_some]

/-! ## Access keys -/

/-- A text that begins with an access key, which no word goes on with. -/
structure Keyed (cs key rest : List Char) : Prop where
  length : key.length = keyWord.length
  isKey : fits keyWord key = true
  ends : inWord rest.head? = false
  text : cs = key ++ rest

theorem fits_take (w : List CharSet) (cs : List Char) : fits w (cs.take w.length) = fits w cs := by
  induction w generalizing cs with
  | nil => rfl
  | cons s w ih =>
    cases cs with
    | nil => rfl
    | cons c cs => exact congrArg (s.contains c && ·) (ih cs)

/-- **What is taken for an access key**: one that no word goes on with. -/
theorem accessKey_hit {p : Option Char} {cs : List Char} {h : Hit} :
    accessKey.hit? p cs = some h ↔ inWord p = false ∧ ∃ key rest, Keyed cs key rest ∧
      h = ⟨key, "AKIA****************".toList⟩ := by
  have hedge : accessKey.hit? p cs = if inWord p then none else keyHit? cs := rfl
  rw [hedge]
  cases hp : inWord p with
  | true => simp
  | false =>
    rw [if_neg Bool.false_ne_true, eq_self, true_and, keyHit?]
    constructor
    · intro hh
      split at hh
      case isFalse => cases hh
      rename_i hfits
      obtain ⟨hfits, hends⟩ := Bool.and_eq_true_iff.1 hfits
      cases hh
      refine ⟨_, cs.drop keyWord.length, ⟨List.length_take_of_le (fits_length hfits), ?_, ?_,
        (List.take_append_drop _ _).symm⟩, rfl⟩
      · rwa [fits_take]
      · simpa using hends
    · rintro ⟨key, rest, ⟨hlength, hfits, hends, rfl⟩, rfl⟩
      rw [← fits_take, ← hlength, List.take_left, List.drop_left, hfits, hends]
      rfl

end Logging.Secret
