import Mathlib.Data.Int.Notation
import Mathlib.Data.List.Forall2
import Mathlib.Data.List.TakeWhile
import Mathlib.Data.Nat.Notation
import Logging.Json.Tree

/-!
# The lexemes of what was written

* `Lexes`: a text is split into tokens, whatever follows it.
* `lexes_string`, `lexes_int`: **a written string and a written whole number are one token each.**
* `Numeral.number?_ofInt`: the token of a whole number of 64 bits has this number as its value.
-/

namespace Logging.Json

/-! ## One step at a time -/

section Steps

variable {m m' : Mode} {c : Char} {cs : List Char} {ts : List Token}

theorem tokens?_cons (h : m.step c = some (ts, m')) :
    m.tokens? (c :: cs) = (m'.tokens? cs).map (ts ++ ·) := by
  rw [Mode.tokens?, h]
  cases hm : m'.tokens? cs <;> simp [hm]

theorem tokens?_cons_nil (h : m.step c = some ([], m')) : m.tokens? (c :: cs) = m'.tokens? cs := by
  rw [tokens?_cons h]
  cases m'.tokens? cs <;> rfl

end Steps

/-! ## Characters of strings -/

/-- How the lexer keeps a character that was written: itself, or the unit of its escape. -/
def Piece.Keeps (p : Piece) (c : Char) : Prop :=
  p = .char c ∨ (p = .unit c.toNat ∧ c.toNat < 0x20)

theorem hexDigit?_hexDigit {d : ℕ} (h : d < 16) : Text.Ranges.hexDigit? (hexDigit d) = some d := by
  have hall : ∀ d < 16, Text.Ranges.hexDigit? (hexDigit d) = some d := by decide
  exact hall d h

/-- A written character is read as one piece. -/
theorem tokens?_escapeChar (c : Char) (done : List Piece) (cs : List Char) :
    ∃ p : Piece, p.Keeps c ∧
      (Mode.inString done).tokens? (escapeChar c ++ cs) = (Mode.inString (p :: done)).tokens? cs := by
  have hslash : (Mode.inString done).step '\\' = some ([], .inEscape done) := rfl
  -- a letter behind a backslash
  have hletter : ∀ {e : Char}, simpleEscape? e = some c → e ≠ 'u' →
      (Mode.inString done).tokens? ('\\' :: e :: cs) = (Mode.inString (.char c :: done)).tokens? cs := by
    intro e he hu
    have hstep : (Mode.inEscape done).step e = some ([], .inString (.char c :: done)) := by
      simp [Mode.step, hu, he]
    rw [tokens?_cons_nil hslash, tokens?_cons_nil hstep]
  unfold escapeChar
  split
  case h_8 =>
    rename_i hquote hback _ _ _ _ _
    split
    · -- the four digits of a unit
      rename_i hlow
      refine ⟨.unit c.toNat, .inr ⟨rfl, hlow⟩, ?_⟩
      have hd : ∀ {n v : ℕ} {d : Char} {k : ℕ}, Text.Ranges.hexDigit? d = some k → n ≠ 3 →
          (Mode.inUnit done n v).step d = some ([], .inUnit done (n + 1) (16 * v + k)) := by
        intro n v d k hk hn
        simp [Mode.step, hk, hn]
      have hlast : ∀ {v : ℕ} {d : Char} {k : ℕ}, Text.Ranges.hexDigit? d = some k →
          (Mode.inUnit done 3 v).step d = some ([], .inString (.unit (16 * v + k) :: done)) := by
        intro v d k hk
        simp [Mode.step, hk]
      have hu : (Mode.inEscape done).step 'u' = some ([], .inUnit done 0 0) := rfl
      have hzero : Text.Ranges.hexDigit? '0' = some 0 := by decide
      simp only [List.cons_append, List.nil_append]
      rw [tokens?_cons_nil hslash, tokens?_cons_nil hu,
        tokens?_cons_nil (hd hzero (by omega)), tokens?_cons_nil (hd hzero (by omega)),
        tokens?_cons_nil (hd (hexDigit?_hexDigit (by omega)) (by omega)),
        tokens?_cons_nil (hlast (hexDigit?_hexDigit (by omega)))]
      have hn : 16 * (16 * (16 * (16 * 0 + 0) + 0) + c.toNat / 16) + c.toNat % 16 = c.toNat := by omega
      rw [hn]
    · rename_i hlow
      refine ⟨.char c, .inl rfl, ?_⟩
      have hq : c ≠ '"' := fun h => hquote h
      have hb : c ≠ '\\' := fun h => hback h
      exact tokens?_cons_nil (by simp [Mode.step, hq, hb, hlow])
  all_goals exact ⟨.char _, .inl rfl, hletter rfl (by decide)⟩

/-- The characters of a string are read as pieces, the last one first. -/
theorem tokens?_escaped (cs : List Char) (rest : List Char) : ∀ done : List Piece,
    ∃ ps : List Piece, List.Forall₂ Piece.Keeps ps cs ∧
      (Mode.inString done).tokens? (cs.flatMap escapeChar ++ rest) =
        (Mode.inString (ps.reverse ++ done)).tokens? rest := by
  induction cs with
  | nil => exact fun done => ⟨[], .nil, rfl⟩
  | cons c cs ih =>
    intro done
    rw [List.flatMap_cons, List.append_assoc]
    obtain ⟨p, hp, hread⟩ := tokens?_escapeChar c done (cs.flatMap escapeChar ++ rest)
    obtain ⟨ps, hps, hmore⟩ := ih (p :: done)
    refine ⟨p :: ps, .cons hp hps, ?_⟩
    rw [hread, hmore, List.reverse_cons, List.append_assoc, List.singleton_append]

theorem decodePieces?_unit {n : ℕ} (h : n < 0x20) (ps : List Piece) :
    decodePieces? (.unit n :: ps) = (decodePieces? ps).map (Char.ofNat n :: ·) := by
  have hhigh : isHighHalf n = false := by simp only [isHighHalf, decide_eq_false_iff_not]; omega
  have hlow : isLowHalf n = false := by simp only [isLowHalf, decide_eq_false_iff_not]; omega
  rcases ps with _ | ⟨p, ps⟩
  · simp [decodePieces?, hhigh, hlow]
  · cases p <;> simp [decodePieces?, hhigh, hlow]

/-- The pieces of written characters are put together to the same characters. -/
theorem decodePieces?_of_keeps {ps : List Piece} {cs : List Char}
    (h : List.Forall₂ Piece.Keeps ps cs) : decodePieces? ps = some cs := by
  induction h with
  | nil => rfl
  | @cons p c ps cs hp _ ih =>
    rcases hp with rfl | ⟨rfl, hlow⟩
    · rw [decodePieces?, ih]
      rfl
    · rw [decodePieces?_unit hlow, ih, Char.ofNat_toNat]
      rfl

/-- A string ends at its own quote, whatever follows it. -/
theorem tokens?_string (s : String) (rest : List Char) :
    Mode.between.tokens? (renderString s ++ rest) =
      (Mode.between.tokens? rest).map (.string (some s) :: ·) := by
  have hopen : Mode.between.step '"' = some ([], .inString []) := rfl
  obtain ⟨ps, hps, hread⟩ := tokens?_escaped s.toList ('"' :: rest) []
  have hclose : (Mode.inString (ps.reverse ++ [])).step '"' =
      some ([.string (some s)], .between) := by
    simp [Mode.step, decodePieces?_of_keeps hps]
  rw [renderString, List.cons_append, List.cons_append, List.append_assoc, List.singleton_append,
    tokens?_cons_nil hopen, hread, tokens?_cons hclose]
  rfl

/-! ## Texts that are complete -/

/-- What may follow a value: the end of the text, or what parts and ends the parts of a value. -/
def Delimited (rest : List Char) : Prop :=
  rest = [] ∨ ∃ c r, rest = c :: r ∧ (c = ',' ∨ c = ']' ∨ c = '\x7d')

/-- A text is split into these tokens, whatever follows it. -/
def Lexes (cs : List Char) (ts : List Token) : Prop :=
  ∀ rest, Delimited rest →
    Mode.between.tokens? (cs ++ rest) = (Mode.between.tokens? rest).map (ts ++ ·)

theorem lexes_string (s : String) : Lexes (renderString s) [.string (some s)] :=
  fun rest _ => tokens?_string s rest

/-- What ends a number or a word ends it with all of its characters. -/
theorem tokens?_delimited {m : Mode} {t : Option Token}
    (hfinish : m.finish = t.map fun t => [t])
    (hstep : ∀ c, (c = ',' ∨ c = ']' ∨ c = '\x7d') → m.step c = t.bind fun t =>
      (Mode.start c).map fun p => (t :: p.1, p.2))
    {rest : List Char} (h : Delimited rest) :
    m.tokens? rest = t.bind fun t => (Mode.between.tokens? rest).map (t :: ·) := by
  rcases h with rfl | ⟨c, r, rfl, hc⟩
  · cases t <;> simp_all [Mode.tokens?, Mode.finish]
  · rw [Mode.tokens?, Mode.tokens?, hstep c hc, show Mode.between.step c = Mode.start c from rfl]
    cases t with
    | none => rfl
    | some t =>
      rcases Mode.start c with _ | ⟨ts, m'⟩
      · rfl
      · cases hm : m'.tokens? r <;> simp [hm]

/-- Characters that a mode gathers are kept with the last one first. -/
theorem tokens?_gathered {m : List Char → Mode} {p : Char → Bool}
    (hm : ∀ c done, p c → (m done).step c = some ([], m (c :: done))) {cs : List Char}
    (h : ∀ c ∈ cs, p c) (rest : List Char) : ∀ done : List Char,
      (m done).tokens? (cs ++ rest) = (m (cs.reverse ++ done)).tokens? rest := by
  induction cs with
  | nil => exact fun done => rfl
  | cons c cs ih =>
    intro done
    rw [List.cons_append, tokens?_cons_nil (hm c done (h c List.mem_cons_self)),
      ih fun c' hc' => h c' (List.mem_cons_of_mem _ hc')]
    simp

/-! ## Words -/

/-- A word is read up to what ends it. -/
theorem lexes_word {c : Char} (cs : List Char) {t : Token} (hw : word? (c :: cs) = some t)
    (hstart : Mode.start c = some ([], .inWord [c])) (hcs : cs.all fun c => 'a' ≤ c ∧ c ≤ 'z') :
    Lexes (c :: cs) [t] := by
  intro rest h
  have hread : word? (cs.reverse ++ [c]).reverse = some t := by simpa using hw
  rw [List.cons_append, tokens?_cons_nil (m := .between) hstart,
    tokens?_gathered (m := .inWord) (p := fun c => 'a' ≤ c ∧ c ≤ 'z')
      (by intro c done hc; simp_all [Mode.step]) (by simpa using hcs),
    tokens?_delimited (t := some t) _ _ h]
  · rfl
  · simp only [Mode.finish, hread]
  · intro c' hc'
    simp only [Mode.step, hread]
    rcases hc' with rfl | rfl | rfl <;> rfl

theorem lexes_null : Lexes null.chars [.null] :=
  lexes_word "ull".toList rfl rfl (by decide)

theorem lexes_bool (b : Bool) : Lexes (bool b).chars [if b then .true else .false] := by
  cases b with
  | true => exact lexes_word "rue".toList rfl rfl (by decide)
  | false => exact lexes_word "alse".toList rfl rfl (by decide)

/-! ## Whole numbers -/

/-- The digits of a number, the highest one first. -/
def digitsOf (n : ℕ) : List ℕ := (Nat.toDigits 10 n).map fun c => c.toNat - 48

theorem digitsOf_eq (n : ℕ) :
    digitsOf n = if n < 10 then [n] else digitsOf (n / 10) ++ [n % 10] := by
  have hchar : ∀ d < 10, d.digitChar.toNat - 48 = d := by decide
  unfold digitsOf
  rw [Nat.toDigits_eq_if (by omega)]
  split
  · rename_i h
    simp [hchar n h]
  · simp [hchar (n % 10) (by omega)]

/-- No number other than zero begins with a zero. -/
theorem digitsOf_head (n : ℕ) : (digitsOf n).head? = some 0 → n = 0 := by
  induction n using Nat.strongRecOn with
  | _ n ih =>
    intro h
    rw [digitsOf_eq] at h
    split at h
    · simpa using h
    · rename_i hn
      have hne : digitsOf (n / 10) ≠ [] := by simp [digitsOf, Nat.toDigits_ne_nil]
      rw [List.head?_append_of_ne_nil _ hne] at h
      have := ih (n / 10) (by omega) h
      omega

/-- All digits of a number of 64 bits are used. -/
theorem takeSignificand_digitsOf (n : ℕ) :
    n < UInt64.size → (digitsOf n).foldl takeSignificand (0, 0, Bool.true) = (n, 0, Bool.true) := by
  induction n using Nat.strongRecOn with
  | _ n ih =>
    intro h
    rw [digitsOf_eq]
    split
    · simp [takeSignificand, h]
    · have hn : n / 10 * 10 + n % 10 = n := by omega
      rw [List.foldl_append, ih (n / 10) (by omega) (by omega)]
      simp [takeSignificand, hn, h]

/-- The numeral that a whole number is written as. -/
def Numeral.ofInt (n : ℤ) : Numeral := ⟨decide (n < 0), digitsOf n.natAbs, none, none⟩

theorem isDigit_bounds {c : Char} (h : c.isDigit = Bool.true) : '0' ≤ c ∧ c ≤ '9' := by
  simpa [Char.isDigit, Char.le_def] using h

theorem takeDigits_toDigits (n : ℕ) : takeDigits (Nat.toDigits 10 n) = (digitsOf n, []) := by
  have hall : ∀ c ∈ Nat.toDigits 10 n, decide ('0' ≤ c ∧ c ≤ '9') = Bool.true := by
    intro c hc
    exact decide_eq_true (isDigit_bounds (Nat.isDigit_of_mem_toDigits (by omega) (by omega) hc))
  rw [takeDigits, List.takeWhile_eq_self_iff.2 hall, List.dropWhile_eq_nil_iff.2 hall, digitsOf]

/-- Digits without a sign are read as a number that is not negative, and behind a minus as one that
is. -/
theorem numeral?_toDigits (n : ℕ) :
    numeral? (Nat.toDigits 10 n) = some ⟨Bool.false, digitsOf n, none, none⟩ ∧
      numeral? ('-' :: Nat.toDigits 10 n) = some ⟨Bool.true, digitsOf n, none, none⟩ := by
  have hminus : '-' ∉ Nat.toDigits 10 n := by
    intro h
    exact absurd (Nat.isDigit_of_mem_toDigits (by omega) (by omega) h) (by decide)
  have hzero : ¬(digitsOf n = [] ∨ (digitsOf n).head? = some 0 ∧ digitsOf n ≠ [0]) := by
    rintro (h | ⟨h, hne⟩)
    · simp [digitsOf, Nat.toDigits_ne_nil] at h
    · obtain rfl := digitsOf_head n h
      exact hne (by decide)
  constructor
  · unfold numeral?
    split
    rename_i negative cs hcs
    split at hcs
    · rename_i r hr
      exact absurd (by rw [hr]; exact List.mem_cons_self) hminus
    · obtain ⟨rfl, rfl⟩ := Prod.mk.inj hcs
      simp [takeDigits_toDigits, hzero, exponent?]
  · simp [numeral?, takeDigits_toDigits, hzero, exponent?]

theorem toList_toString (n : ℤ) : (toString n).toList =
    if n < 0 then '-' :: Nat.toDigits 10 n.natAbs else Nat.toDigits 10 n.natAbs := by
  cases n with
  | ofNat n => exact Nat.toList_repr
  | negSucc n =>
    rw [if_pos (Int.negSucc_lt_zero n)]
    show ("-" ++ toString (n + 1)).toList = '-' :: Nat.toDigits 10 (n + 1)
    rw [String.toList_append, Nat.toString_eq_repr, Nat.toList_repr]
    rfl

theorem numeral?_toString (n : ℤ) : numeral? (toString n).toList = some (.ofInt n) := by
  rw [toList_toString, Numeral.ofInt]
  split
  · rename_i h
    simp [h, numeral?_toDigits]
  · rename_i h
    simp [h, numeral?_toDigits]

theorem lexes_int (n : ℤ) : Lexes (int n).chars [.number (.ofInt n)] := by
  intro rest hrest
  have hdigits : ∀ c ∈ Nat.toDigits 10 n.natAbs, isNumberChar c = Bool.true := by
    intro c hc
    have := isDigit_bounds (Nat.isDigit_of_mem_toDigits (by omega) (by omega) hc)
    simp [isNumberChar, this]
  have hall : ∀ c ∈ (toString n).toList, isNumberChar c = Bool.true := by
    rw [toList_toString]
    split
    · exact List.forall_mem_cons.2 ⟨by decide, hdigits⟩
    · exact hdigits
  have hnumeral := numeral?_toString n
  show Mode.between.tokens? ((toString n).toList ++ rest) = _
  cases hcs : (toString n).toList with
  | nil =>
    rw [hcs] at hnumeral
    cases hnumeral
  | cons c cs =>
    rw [hcs] at hall hnumeral
    have hc := hall c List.mem_cons_self
    have hstart : Mode.between.step c = some ([], .inNumber [c]) := by
      show Mode.start c = _
      unfold Mode.start
      split
      case h_8 =>
        have hblank : isBlankChar c = Bool.false := by
          by_contra hb
          simp only [isBlankChar, Bool.not_eq_false, decide_eq_true_eq] at hb
          rcases hb with rfl | rfl | rfl | rfl <;> exact absurd hc (by decide)
        simp [hblank, hc]
      all_goals exact absurd hc (by decide)
    rw [List.cons_append, tokens?_cons_nil hstart,
      tokens?_gathered (m := .inNumber) (p := isNumberChar)
        (by intro c done hc; simp [Mode.step, hc])
        fun c' hc' => hall c' (List.mem_cons_of_mem _ hc')]
    have hread : numeral? (cs.reverse ++ [c]).reverse = some (.ofInt n) := by
      simpa using hnumeral
    rw [tokens?_delimited (t := some (.number (.ofInt n))) _ _ hrest]
    · rfl
    · simp only [Mode.finish, hread]
      rfl
    · intro c' hc'
      have hnot : isNumberChar c' = Bool.false := by rcases hc' with rfl | rfl | rfl <;> decide
      simp only [Mode.step, hnot, hread]
      rcases hc' with rfl | rfl | rfl <;> rfl

/-- The numeral of a whole number of 64 bits, with or without sign, has this number as its value. -/
theorem Numeral.number?_ofInt {n : ℤ} (hlow : -0x8000000000000000 ≤ n)
    (hhigh : n < 0x10000000000000000) :
    (Numeral.ofInt n).number? = some (.int n) := by
  have hfits : n.natAbs < UInt64.size := by
    show n.natAbs < 2 ^ 64
    omega
  have hfold := takeSignificand_digitsOf n.natAbs hfits
  simp only [Numeral.number?, Numeral.ofInt, hfold]
  by_cases hn : n < 0
  · have habs : 0 < n.natAbs ∧ n.natAbs ≤ 1 <<< 63 := by
      rw [show 1 <<< 63 = 2 ^ 63 from rfl]
      omega
    have hneg : -(n.natAbs : ℤ) = n := by omega
    simp only [hn, habs, hneg, decide_true, Bool.not_true, and_self, if_true, if_false,
      Bool.false_eq_true]
  · simp [hn]
    omega

end Logging.Json
