import Mathlib.Data.List.Basic
import Logging.Pattern.CharSet

/-!
# ASCII letters up to case

Two characters outside ASCII equal an ASCII letter up to case: the long s and the sign for kelvins.

* `Alike`: two characters are equal up to case.
* `contains_anyCase`: **the set of what equals a character up to case.**
* `isWord_of_alike`: **what equals an ASCII letter up to case is a character of words.**
* `code_of_isSpace`: the code points of white space, as far as ASCII and these two are concerned.
-/

namespace Logging.Text

/-! ## Quantifiers

What is said of the characters of a list is decided along the list, and not for all characters. -/

instance (priority := 2000) decidableForallMem (p : Char → Prop) [DecidablePred p]
    (cs : List Char) : Decidable (∀ c ∈ cs, p c) :=
  List.decidableBAll p cs

instance (priority := 2000) decidableExistsMem (p : Char → Prop) [DecidablePred p]
    (cs : List Char) : Decidable (∃ c ∈ cs, p c) :=
  List.decidableBEx p cs

/-! ## Case -/

/-- The code points of the ASCII letters. -/
def letterCodes : List Nat := List.range' 0x41 26 ++ List.range' 0x61 26

/-- The code points of the long s and of the sign for kelvins. -/
def strayCodes : List Nat := [0x17F, 0x212A]

theorem mem_letterCodes {n : Nat} :
    n ∈ letterCodes ↔ (0x41 ≤ n ∧ n ≤ 0x5A) ∨ (0x61 ≤ n ∧ n ≤ 0x7A) := by
  simp only [letterCodes, List.mem_append, List.mem_range'_1]
  omega

theorem isAsciiLetter_iff {c : Char} : isAsciiLetter c = true ↔ c.toNat ∈ letterCodes := by
  simp only [isAsciiLetter, Char.le_def, UInt32.le_iff_toNat_le, decide_eq_true_eq,
    mem_letterCodes]
  exact or_comm

/-- Only letters have a partner in ASCII. -/
theorem casePartner?_ascii {n m : Nat} (h : casePartner? n = some m) (hm : m < 128) :
    n ∈ letterCodes := by
  obtain ⟨⟨first, last, step, distance⟩, he, hn⟩ := List.exists_of_findSome?_eq_some h
  have hruns : ∀ e ∈ casePairs, e.1 < 128 → 0x41 ≤ e.1 ∧ e.2.1 ≤ 0x5A ∧ e.2.2.2 = 32 := by
    decide +kernel
  have hrun := hruns _ he
  rw [mem_letterCodes]
  simp only at hn hrun
  split at hn
  · obtain rfl : n + distance = m := by simpa using hn
    omega
  · split at hn
    · obtain rfl : n - distance = m := by simpa using hn
      omega
    · cases hn

theorem ofNat_toNat_cases (n : Nat) : (Char.ofNat n).toNat = n ∨ (Char.ofNat n).toNat = 0 := by
  unfold Char.ofNat
  by_cases hn : n.isValidChar
  · rw [dif_pos hn]
    exact .inl rfl
  · rw [dif_neg hn]
    exact .inr rfl

/-- Few characters equal one of ASCII up to case. -/
theorem mem_codes_of_mem_otherCases {c x : Char} (h : x ∈ otherCases c) (hpos : 0 < x.toNat)
    (hx : x.toNat < 128) : c.toNat ∈ letterCodes ++ strayCodes := by
  have hclasses : ∀ cls ∈ caseClasses, (∃ n ∈ cls, n < 128) →
      ∀ n ∈ cls, n ∈ letterCodes ++ strayCodes := by decide +kernel
  have hcode : ∀ n, Char.ofNat n = x → n < 128 := by
    rintro n rfl
    rcases ofNat_toNat_cases n with h | h <;> omega
  unfold otherCases at h
  split at h
  · rename_i cls hcls
    obtain ⟨n, hn, hxn⟩ := List.mem_map.1 h
    have hc : c.toNat ∈ cls := by simpa using List.find?_some hcls
    have hascii : ∃ n ∈ cls, n < 128 := ⟨n, (List.mem_filter.1 hn).1, hcode n hxn⟩
    exact hclasses cls (List.mem_of_find?_eq_some hcls) hascii _ hc
  · split at h
    · rename_i n hn
      have hxn := List.mem_singleton.1 h
      exact List.mem_append_left _ (casePartner?_ascii hn (hcode n hxn.symm))
    · cases h

/-- A character that equals a letter or one of the two signs is equalled by it. -/
theorem mem_otherCases_of_codes : ∀ n ∈ letterCodes ++ strayCodes, ∀ x ∈ otherCases (Char.ofNat n),
    Char.ofNat n ∈ otherCases x := by decide +kernel

/-- What equals an ASCII character up to case is what that character equals. -/
theorem mem_otherCases_comm {c x : Char} (h : x ∈ otherCases c) (hpos : 0 < x.toNat)
    (hx : x.toNat < 128) : c ∈ otherCases x := by
  have hback := mem_otherCases_of_codes _ (mem_codes_of_mem_otherCases h hpos hx)
  rw [Char.ofNat_toNat] at hback
  exact hback x h

/-- Whether two characters are equal up to case. -/
def Alike (c x : Char) : Prop := c = x ∨ c ∈ otherCases x

instance (c x : Char) : Decidable (Alike c x) := inferInstanceAs (Decidable (_ ∨ _))

theorem alike_refl (c : Char) : Alike c c := .inl rfl

/-- **The set of what equals a character up to case**, for letters and for signs without case. -/
theorem contains_anyCase {c x : Char}
    (hx : isAsciiLetter x = true ∨ 0 < x.toNat ∧ x.toNat < 128 ∧ otherCases x = []) :
    (Pattern.CharSet.anyCase (.single x)).contains c = true ↔ Alike c x := by
  have hsym : x ∈ otherCases c ↔ c ∈ otherCases x := by
    rcases hx with hletter | ⟨hpos, hlt, hnil⟩
    · have hcode := isAsciiLetter_iff.1 hletter
      have hbounds := mem_letterCodes.1 hcode
      refine ⟨fun h => mem_otherCases_comm h (by omega) (by omega), fun h => ?_⟩
      have hback := mem_otherCases_of_codes _ (List.mem_append_left _ hcode)
      rw [Char.ofNat_toNat] at hback
      exact hback c h
    · refine ⟨fun h => mem_otherCases_comm h hpos hlt, fun h => ?_⟩
      rw [hnil] at h
      cases h
  have hrange : ∀ d : Char, x ≤ d ∧ d ≤ x ↔ d = x := fun d =>
    ⟨fun h => Char.le_antisymm h.2 h.1, fun h => h ▸ ⟨Char.le_refl d, Char.le_refl d⟩⟩
  simp only [Pattern.CharSet.contains, Pattern.CharSet.single, Bool.or_eq_true, Bool.and_eq_true,
    decide_eq_true_eq, List.any_eq_true, hrange, exists_eq_right, Alike, ← hsym]

/-! ## Characters of words -/

/-- Whether the ranges that a text spells hold a code point. -/
def covers (n : Nat) (cs : List Char) : Bool :=
  (cs.foldl Ranges.Reading.step ⟨none, none, []⟩).finish.done.any fun b => b.1 ≤ n && n ≤ b.2

theorem contains_ofText {cs : List Char} {c : Char} (h : covers c.toNat cs = true) :
    (Ranges.ofText (String.ofList cs)).contains c = true := by
  unfold Ranges.ofText
  rw [String.foldl_eq_foldl_toList, String.toList_ofList]
  simpa [covers, Ranges.contains, Ranges.containsCode] using h

set_option maxRecDepth 100000 in
/-- The long s is a letter. -/
theorem contains_lowerLetters : Category.lowerLetters.contains 'ſ' = true := by
  obtain ⟨cs, hcs, h⟩ : ∃ cs, Category.lowerLetterText = String.ofList cs ∧
      covers 0x17F cs = true := ⟨_, rfl, by decide +kernel⟩
  rw [Category.lowerLetters, hcs]
  exact contains_ofText h

set_option maxRecDepth 100000 in
/-- The sign for kelvins is a letter. -/
theorem contains_upperLetters : Category.upperLetters.contains '\u212A' = true := by
  obtain ⟨cs, hcs, h⟩ : ∃ cs, Category.upperLetterText = String.ofList cs ∧
      covers 0x212A cs = true := ⟨_, rfl, by decide +kernel⟩
  rw [Category.upperLetters, hcs]
  exact contains_ofText h

theorem contains_unions {r : Ranges} {rs : List Ranges} {c : Char} (hr : r ∈ rs)
    (h : r.contains c = true) : (Ranges.unions rs).contains c = true := by
  obtain ⟨b, hb, hbc⟩ := List.any_eq_true.1 h
  exact List.any_eq_true.2 ⟨b, List.mem_flatMap.2 ⟨r, hr, hb⟩, hbc⟩

theorem isWord_of_letters {c : Char} (h : Category.letters.contains c = true)
    (hc : isAscii c = false) : isWord c = true := by
  have halphabetic : Category.alphabetic.contains c = true := contains_unions (by simp) h
  simp [isWord, hc, wordCharacters, halphabetic]

/-- **What equals an ASCII letter up to case is a character of words.** -/
theorem isWord_of_alike {c x : Char} (hx : isAsciiLetter x = true) (h : Alike c x) :
    isWord c = true := by
  have hcodes : ∀ n ∈ letterCodes, ∀ c ∈ Char.ofNat n :: otherCases (Char.ofNat n),
      c = 'ſ' ∨ c = '\u212A' ∨ isAscii c = true ∧ isAsciiLetter c = true := by decide +kernel
  have hc := hcodes _ (isAsciiLetter_iff.1 hx)
  rw [Char.ofNat_toNat] at hc
  rcases hc c (List.mem_cons.2 h) with rfl | rfl | ⟨hascii, hletter⟩
  · exact isWord_of_letters (contains_unions (by simp) contains_lowerLetters) (by decide)
  · exact isWord_of_letters (contains_unions (by simp) contains_upperLetters) (by decide)
  · simp [isWord, hascii, hletter]

/-! ## White space -/

theorem bounds_spaces : spaces.bounds = [(9, 13), (32, 32), (0x85, 0x85), (0xA0, 0xA0),
    (0x1680, 0x1680), (0x2000, 0x200A), (0x2028, 0x2029), (0x202F, 0x202F), (0x205F, 0x205F),
    (0x3000, 0x3000)] := by
  unfold spaces Ranges.ofText
  rw [String.foldl_eq_foldl_toList]
  decide

/-- White space within ASCII comes before the signs and letters. -/
theorem code_of_isSpace {c : Char} (h : isSpace c = true) :
    c.toNat ≤ 32 ∨ 128 ≤ c.toNat ∧ c.toNat ∉ strayCodes := by
  unfold isSpace at h
  split at h
  · simp only [Bool.or_eq_true, Bool.and_eq_true, decide_eq_true_eq] at h
    rcases h with rfl | h
    · exact .inl (by decide)
    · exact .inl (by omega)
  · rename_i hascii
    have hhigh : 128 ≤ c.toNat := by simpa [isAscii] using hascii
    refine .inr ⟨hhigh, fun hstray => ?_⟩
    obtain ⟨b, hb, hc⟩ := List.any_eq_true.1 h
    rw [bounds_spaces] at hb
    have hclear : ∀ b ∈ [(9, 13), (32, 32), (0x85, 0x85), (0xA0, 0xA0), (0x1680, 0x1680),
        (0x2000, 0x200A), (0x2028, 0x2029), (0x202F, 0x202F), (0x205F, 0x205F), (0x3000, 0x3000)],
        ∀ n ∈ strayCodes, ¬ (decide (b.1 ≤ n) && decide (n ≤ b.2)) = true := by decide
    exact hclear b hb _ hstray hc

end Logging.Text
