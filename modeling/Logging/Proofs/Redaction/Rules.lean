import Mathlib.Data.List.Forall2
import Logging.Redaction.Chain
import Logging.Proofs.Text.Cases
import Logging.Proofs.Pattern.Ends
import Logging.Proofs.Pattern.Sweep

/-!
# The rules for common secrets

The three rules that mask common secrets, as rules for what is taken from the front of a text.

* `letter`, `solid`, `token`, `keySet`: the sets of characters that names, values, tokens and access
  keys are made of.
* `assigned`: a name, an equals sign and all that follows up to white space.
* `bearer`: the word `bearer`, white space and a token with the equals signs behind it.
* `accessKey`: `AKIA` and sixteen capitals and digits, a word of their own.
-/

namespace Logging.Secret

open Pattern

/-! ## Sets -/

/-- What equals a letter up to case. -/
def letter (c : Char) : CharSet := .anyCase (.single c)

/-- A word in any case. -/
def spelled (w : String) : List CharSet := w.toList.map letter

/-- The sign between the two parts of a name. -/
def joint : CharSet := .anyCase (.union (.single '_') (.single '-'))

/-- Everything but white space. -/
def solid : CharSet := .compl .space

/-- Letters, digits and the signs of tokens. -/
def tokenSigns : CharSet :=
  .union (.union (.union (.union (.union (.union (.union (.union (.range 'A' 'Z')
    (.range 'a' 'z')) (.range '0' '9')) (.single '-')) (.single '.')) (.single '_')) (.single '~'))
    (.single '+')) (.single '/')

/-- The characters of tokens. -/
def token : CharSet := .anyCase tokenSigns

/-- The characters of access keys. -/
def keySet : CharSet := .union (.range '0' '9') (.range 'A' 'Z')

/-- The front of an access key, and the characters that follow it. -/
def keyWord : List CharSet := "AKIA".toList.map .single ++ List.replicate 16 keySet

/-- The names of secrets. -/
def names : List String :=
  ["password", "passwd", "pwd", "secret", "token", "api_key", "api-key", "apikey"]

/-- Whether the character in front is one of a word. -/
abbrev inWord (p : Option Char) : Bool := Spot.isWordAt false p

theorem contains_joint (c : Char) :
    joint.contains c = ((letter '_').contains c || (letter '-').contains c) := by
  rw [Bool.eq_iff_iff]
  simp only [joint, letter, CharSet.contains, Bool.or_eq_true, List.any_eq_true, and_or_left,
    exists_or]
  exact or_or_or_comm

theorem contains_letter {x c : Char} (hx : Text.isAsciiLetter x = true ∨ x ∈ ['_', '-', '=']) :
    (letter x).contains c = true ↔ Text.Alike c x := by
  have hsigns : ∀ x ∈ ['_', '-', '='], 0 < x.toNat ∧ x.toNat < 128 ∧ Text.otherCases x = [] := by
    decide
  exact Text.contains_anyCase (hx.imp_right (hsigns x))

theorem contains_sign {x c : Char} (hx : x ∈ ['_', '-', '=']) :
    (letter x).contains c = true ↔ c = x := by
  have hnone : ∀ x ∈ ['_', '-', '='], Text.otherCases x = [] := by decide
  rw [contains_letter (.inr hx), Text.Alike, hnone x hx]
  simp

theorem code_of_tokenSigns {c : Char} (h : tokenSigns.contains c = true) :
    32 < c.toNat ∧ c.toNat < 128 := by
  simp only [tokenSigns, CharSet.contains, CharSet.single, Bool.or_eq_true, Bool.and_eq_true,
    decide_eq_true_eq, Char.le_def, UInt32.le_iff_toNat_le, Char.toNat_val, Char.reduceToNat] at h
  omega

/-- White space is no part of a token. -/
theorem token_of_space {c : Char} (h : Text.isSpace c = true) : token.contains c = false := by
  rw [Bool.eq_false_iff]
  intro hc
  have hcode := Text.code_of_isSpace h
  rcases Bool.or_eq_true _ _ |>.mp hc with hc | hc
  · have := code_of_tokenSigns hc
    omega
  · obtain ⟨x, hx, hxc⟩ := List.any_eq_true.1 hc
    have hxcode := code_of_tokenSigns hxc
    rcases List.mem_append.1 (Text.mem_codes_of_mem_otherCases hx (by omega) hxcode.2) with hl | hs
    · have := Text.mem_letterCodes.1 hl
      omega
    · have hstray : ∀ n ∈ Text.strayCodes, 128 ≤ n := by decide
      have := hstray _ hs
      rcases hcode with hcode | hcode
      · omega
      · exact hcode.2 hs

theorem isSpace_of_token {c : Char} (h : token.contains c = true) : Text.isSpace c = false := by
  rw [Bool.eq_false_iff]
  intro hspace
  rw [token_of_space hspace] at h
  cases h

theorem contains_solid (c : Char) : solid.contains c = !Text.isSpace c := rfl

theorem solid_of_token {c : Char} (h : token.contains c = true) : solid.contains c = true := by
  rw [contains_solid, isSpace_of_token h, Bool.not_false]

theorem isWord_of_keySet {c : Char} (h : keySet.contains c = true) : Text.isWord c = true := by
  simp only [keySet, CharSet.contains, Bool.or_eq_true, Bool.and_eq_true, decide_eq_true_eq,
    Char.le_def, UInt32.le_iff_toNat_le, Char.toNat_val, Char.reduceToNat] at h
  have hascii : Text.isAscii c = true := decide_eq_true (by omega)
  simp only [Text.isWord, hascii, if_true, Text.isAsciiLetter, Text.isAsciiDigit, Char.le_def,
    UInt32.le_iff_toNat_le, Char.toNat_val, Char.reduceToNat, Bool.or_eq_true, decide_eq_true_eq]
  omega

/-! ## What is taken and what is put -/

/-- What is taken for an equals sign and the value behind it. -/
def value? (cs : List Char) : Option (List Char) :=
  if fits [letter '=', solid] cs then some (cs.take 2 ++ (cs.drop 2).takeWhile solid.contains)
  else none

/-- What is taken for a name of a secret and its value. -/
def nameHit? (cs : List Char) (name : String) : Option Hit :=
  let w := spelled name
  if fits w cs then
    (value? (cs.drop w.length)).map fun v =>
      ⟨cs.take w.length ++ v, cs.take w.length ++ "=***".toList⟩
  else none

/-- What is taken for a token and the equals signs behind it. -/
def padded? (cs : List Char) : Option (List Char) :=
  let tok := cs.takeWhile token.contains
  if tok = [] then none
  else some (tok ++ (cs.dropWhile token.contains).takeWhile (letter '=').contains)

/-- What is taken for the word `bearer`, white space and a token. -/
def tokenHit? (cs : List Char) : Option Hit :=
  let w := spelled "bearer"
  let gap := (cs.drop w.length).takeWhile CharSet.space.contains
  if fits w cs ∧ gap ≠ [] then
    (padded? ((cs.drop w.length).dropWhile CharSet.space.contains)).map fun v =>
      ⟨cs.take w.length ++ (gap ++ v), "Bearer ***".toList⟩
  else none

/-- What is taken for an access key. -/
def keyHit? (cs : List Char) : Option Hit :=
  if fits keyWord cs && !inWord (cs.drop keyWord.length).head? then
    some ⟨cs.take keyWord.length, "AKIA****************".toList⟩
  else none

/-- A rule that takes nothing inside of a word. -/
def edge (f : List Char → Option Hit) (hne : ∀ {cs h}, f cs = some h → h.taken ≠ [])
    (hfront : ∀ {cs h}, f cs = some h → h.taken <+: cs) : Rule where
  hit? p cs := if inWord p then none else f cs
  taken_ne_nil := by
    intro p cs h hh
    split at hh
    · cases hh
    · exact hne hh
  taken_front := by
    intro p cs h hh
    split at hh
    · cases hh
    · exact hfront hh

theorem prefix_of_take {cs xs : List Char} {n : Nat} (h : xs <+: cs.drop n) :
    cs.take n ++ xs <+: cs := by
  obtain ⟨rest, hrest⟩ := h
  exact ⟨rest, by rw [List.append_assoc, hrest, List.take_append_drop]⟩

theorem prefix_of_takeWhile {cs xs : List Char} {f : Char → Bool} (h : xs <+: cs.dropWhile f) :
    cs.takeWhile f ++ xs <+: cs := by
  obtain ⟨rest, hrest⟩ := h
  exact ⟨rest, by rw [List.append_assoc, hrest, List.takeWhile_append_dropWhile]⟩

theorem fits_length {w : List CharSet} {cs : List Char} (h : fits w cs = true) :
    w.length ≤ cs.length := by
  induction w generalizing cs with
  | nil => exact Nat.zero_le _
  | cons s w ih =>
    cases cs with
    | nil => cases h
    | cons c cs => exact Nat.succ_le_succ (ih (Bool.and_eq_true_iff.1 h).2)

theorem take_ne_nil_of_fits {w : List CharSet} {cs : List Char} (hw : w ≠ [])
    (h : fits w cs = true) : cs.take w.length ≠ [] := by
  have := List.length_pos_iff.2 hw
  have := fits_length h
  rw [← List.length_pos_iff, List.length_take]
  omega

theorem mem_of_fits {w : List CharSet} {cs : List Char} {c : Char} (h : fits w cs = true)
    (hc : c ∈ cs.take w.length) : ∃ s ∈ w, s.contains c = true := by
  induction w generalizing cs with
  | nil => cases hc
  | cons s w ih =>
    cases cs with
    | nil => cases hc
    | cons x cs =>
      have hx := Bool.and_eq_true_iff.1 h
      rcases List.mem_cons.1 hc with rfl | hc
      · exact ⟨s, List.mem_cons_self, hx.1⟩
      · obtain ⟨t, ht, htc⟩ := ih hx.2 hc
        exact ⟨t, List.mem_cons_of_mem _ ht, htc⟩

/-- An access key is a word. -/
theorem isWord_of_keyWord {cs : List Char} {c : Char} (h : fits keyWord cs = true)
    (hc : c ∈ cs.take keyWord.length) : Text.isWord c = true := by
  obtain ⟨s, hs, hsc⟩ := mem_of_fits h hc
  have hfront : ∀ x ∈ "AKIA".toList, keySet.contains x = true := by decide
  apply isWord_of_keySet
  rcases List.mem_append.1 hs with hs | hs
  · obtain ⟨x, hx, rfl⟩ := List.mem_map.1 hs
    have hbounds := Bool.and_eq_true_iff.1 hsc
    have hxc : x = c := Char.le_antisymm (of_decide_eq_true hbounds.1) (of_decide_eq_true hbounds.2)
    exact hxc ▸ hfront x hx
  · exact (List.eq_of_mem_replicate hs) ▸ hsc

theorem nameHit?_some {cs : List Char} {name : String} {h : Hit} (hh : nameHit? cs name = some h) :
    fits (spelled name) cs = true ∧ ∃ v, value? (cs.drop (spelled name).length) = some v ∧
      h = ⟨cs.take (spelled name).length ++ v,
        cs.take (spelled name).length ++ "=***".toList⟩ := by
  simp only [nameHit?] at hh
  split at hh
  · rename_i hfits
    obtain ⟨v, hv, rfl⟩ := Option.map_eq_some_iff.1 hh
    exact ⟨hfits, v, hv, rfl⟩
  · cases hh

theorem value?_ne_nil {cs v : List Char} (h : value? cs = some v) : v ≠ [] := by
  unfold value? at h
  split at h
  · rename_i hfits
    cases h
    have hne : [letter '=', solid] ≠ [] := by decide
    exact List.append_ne_nil_of_left_ne_nil (take_ne_nil_of_fits hne hfits) _
  · cases h

theorem value?_front {cs v : List Char} (h : value? cs = some v) : v <+: cs := by
  unfold value? at h
  split at h
  · cases h
    exact prefix_of_take (List.takeWhile_prefix _)
  · cases h

/-- Values that are assigned to the names of secrets. -/
def assigned : Rule :=
  edge (fun cs => names.findSome? (nameHit? cs))
    (by
      intro cs h hh
      obtain ⟨name, -, hh⟩ := List.exists_of_findSome?_eq_some hh
      obtain ⟨-, v, hv, rfl⟩ := nameHit?_some hh
      exact List.append_ne_nil_of_right_ne_nil _ (value?_ne_nil hv))
    (by
      intro cs h hh
      obtain ⟨name, -, hh⟩ := List.exists_of_findSome?_eq_some hh
      obtain ⟨-, v, hv, rfl⟩ := nameHit?_some hh
      exact prefix_of_take (value?_front hv))

theorem tokenHit?_some {cs : List Char} {h : Hit} (hh : tokenHit? cs = some h) :
    fits (spelled "bearer") cs = true ∧ ∃ gap v, gap ≠ [] ∧
      gap = (cs.drop (spelled "bearer").length).takeWhile CharSet.space.contains ∧
      padded? ((cs.drop (spelled "bearer").length).dropWhile CharSet.space.contains) = some v ∧
      h = ⟨cs.take (spelled "bearer").length ++ (gap ++ v), "Bearer ***".toList⟩ := by
  simp only [tokenHit?] at hh
  split at hh
  · rename_i hfits
    obtain ⟨v, hv, rfl⟩ := Option.map_eq_some_iff.1 hh
    exact ⟨hfits.1, _, v, hfits.2, rfl, hv, rfl⟩
  · cases hh

theorem padded?_front {cs v : List Char} (h : padded? cs = some v) : v <+: cs := by
  simp only [padded?] at h
  split at h
  · cases h
  · cases h
    exact prefix_of_takeWhile (List.takeWhile_prefix _)

/-- Tokens behind the word `bearer`. -/
def bearer : Rule :=
  edge tokenHit?
    (by
      intro cs h hh
      obtain ⟨-, gap, v, hgap, -, -, rfl⟩ := tokenHit?_some hh
      exact List.append_ne_nil_of_right_ne_nil _ (List.append_ne_nil_of_left_ne_nil hgap v))
    (by
      intro cs h hh
      obtain ⟨-, gap, v, -, rfl, hv, rfl⟩ := tokenHit?_some hh
      exact prefix_of_take (prefix_of_takeWhile (padded?_front hv)))

/-- Access keys. -/
def accessKey : Rule :=
  edge keyHit?
    (by
      intro cs h hh
      simp only [keyHit?] at hh
      split at hh
      · rename_i hfits
        cases hh
        exact take_ne_nil_of_fits (by decide) (Bool.and_eq_true_iff.1 hfits).1
      · cases hh)
    (by
      intro cs h hh
      simp only [keyHit?] at hh
      split at hh
      · cases hh
        exact List.take_prefix _ _
      · cases hh)

end Logging.Secret
