import Mathlib.Data.List.Basic
import Logging.Line.Logfmt

/-!
# Reading lines of key-value pairs

* `scan?`: a reader of such lines. It takes a key up to the equals sign and a value that is either
  quoted or ends at the next blank, and goes on behind one blank.
* `Spells`: a written value is read as a text, whatever follows it.
* `scan?_intercalate`: **pairs that were written one behind the other are read one by one.**
-/

namespace Logging.Line

/-- Reads up to the closing quote, and what follows it. A backslash makes the next character
literal. -/
def readQuoted? : List Char → Option (List Char × List Char)
  | [] => none
  | '"' :: rest => some ([], rest)
  | ['\\'] => none
  | '\\' :: c :: rest => (readQuoted? rest).map fun (s, r) => (c :: s, r)
  | c :: rest => (readQuoted? rest).map fun (s, r) => (c :: s, r)

/-- Reads a value: a quoted text, or the longest run without a blank. -/
def readValue? : List Char → Option (List Char × List Char)
  | '"' :: rest => readQuoted? rest
  | cs => some (cs.takeWhile (· ≠ ' '), cs.dropWhile (· ≠ ' '))

/-- Reads a key, an equals sign and a value. -/
def readPair? (cs : List Char) : Option ((String × String) × List Char) :=
  match cs.dropWhile (· ≠ '=') with
  | [] => none
  | _ :: rest => (readValue? rest).map fun (v, r) =>
    ((String.ofList (cs.takeWhile (· ≠ '=')), String.ofList v), r)

theorem readQuoted?_length : ∀ {cs s r : List Char}, readQuoted? cs = some (s, r) →
    r.length < cs.length := by
  intro cs
  induction cs using readQuoted?.induct with
  | case1 => intro s r h; simp [readQuoted?] at h
  | case2 rest =>
    intro s r h
    obtain ⟨-, rfl⟩ : [] = s ∧ rest = r := by simpa [readQuoted?] using h
    simp
  | case3 => intro s r h; simp [readQuoted?] at h
  | case4 c rest ih =>
    intro s r h
    simp only [readQuoted?, Option.map_eq_some_iff] at h
    obtain ⟨⟨s', r'⟩, h', he⟩ := h
    obtain rfl : r' = r := congrArg Prod.snd he
    have := ih h'
    simp only [List.length_cons]
    omega
  | case5 c rest h₁ h₂ h₃ ih =>
    intro s r h
    rw [readQuoted?] at h
    · obtain ⟨⟨s', r'⟩, h', he⟩ := Option.map_eq_some_iff.1 h
      obtain rfl : r' = r := congrArg Prod.snd he
      have := ih h'
      simp only [List.length_cons]
      omega
    all_goals assumption

theorem readPair?_length {cs r : List Char} {p : String × String}
    (h : readPair? cs = some (p, r)) : r.length < cs.length := by
  have hdrop : (cs.dropWhile (· ≠ '=')).length ≤ cs.length := (List.dropWhile_sublist _).length_le
  unfold readPair? at h
  split at h
  · cases h
  rename_i c rest hc
  obtain ⟨⟨v, r'⟩, hv, he⟩ := Option.map_eq_some_iff.1 h
  obtain rfl : r' = r := congrArg Prod.snd he
  rw [hc, List.length_cons] at hdrop
  unfold readValue? at hv
  split at hv
  · have := readQuoted?_length hv
    simp only [List.length_cons] at hdrop
    omega
  · obtain rfl : rest.dropWhile (· ≠ ' ') = r' := by simpa using congrArg (Option.map Prod.snd) hv
    have : (rest.dropWhile (· ≠ ' ')).length ≤ rest.length := (List.dropWhile_sublist _).length_le
    omega

/-- Reads pairs that are parted by one blank. -/
def scan? (cs : List Char) : Option (List (String × String)) :=
  match _h : readPair? cs with
  | none => none
  | some (p, []) => some [p]
  | some (p, c :: rest) => if c = ' ' then (scan? rest).map (p :: ·) else none
termination_by cs.length
decreasing_by
  have := readPair?_length _h
  simp only [List.length_cons] at this
  omega

theorem scan?_last {cs : List Char} {p : String × String} (h : readPair? cs = some (p, [])) :
    scan? cs = some [p] := by
  rw [scan?]
  split <;> simp_all

theorem scan?_more {cs rest : List Char} {p : String × String}
    (h : readPair? cs = some (p, ' ' :: rest)) : scan? cs = (scan? rest).map (p :: ·) := by
  rw [scan?]
  split <;> simp_all

/-! ## Written values -/

/-- Where a value ends: at the end of the line or in front of a blank. -/
def Ends (rest : List Char) : Prop := rest = [] ∨ ∃ r, rest = ' ' :: r

/-- A written value is read as that text, whatever follows it. -/
def Spells (value text : String) : Prop :=
  ∀ rest, Ends rest → readValue? (value.toList ++ rest) = some (text.toList, rest)

/-- What is between quotes is read up to the closing one. -/
theorem readQuoted?_flatMap (cs rest : List Char) :
    readQuoted? (cs.flatMap quoteChar ++ '"' :: rest) = some (cs, rest) := by
  induction cs with
  | nil => rfl
  | cons c cs ih =>
    rw [List.flatMap_cons, List.append_assoc]
    by_cases hb : c = '\\'
    · subst hb
      simp [quoteChar, readQuoted?, ih]
    by_cases hq : c = '"'
    · subst hq
      simp [quoteChar, readQuoted?, ih]
    -- any other character stands for itself
    have hc : quoteChar c = [c] := by unfold quoteChar; split <;> simp_all
    rw [hc, List.singleton_append, readQuoted?]
    · simp [ih]
    all_goals simp_all

theorem spells_quote (s : String) : Spells (quote s) s := by
  intro rest _
  simp [quote, readValue?, readQuoted?_flatMap]

/-- A text that holds no blank and begins with no quote stands for itself. -/
theorem spells_self {s : String} (hblank : ' ' ∉ s.toList) (hquote : s.toList.head? ≠ some '"') :
    Spells s s := by
  intro rest hrest
  have hne : ∀ c ∈ s.toList, decide (c ≠ ' ') = true := by
    intro c hc
    exact decide_eq_true fun h => hblank (h ▸ hc)
  have htake : (s.toList ++ rest).takeWhile (· ≠ ' ') = s.toList := by
    rw [List.takeWhile_append_of_pos hne]
    rcases hrest with rfl | ⟨r, rfl⟩ <;> simp
  have hdrop : (s.toList ++ rest).dropWhile (· ≠ ' ') = rest := by
    rw [List.dropWhile_append_of_pos hne]
    rcases hrest with rfl | ⟨r, rfl⟩ <;> simp
  unfold readValue?
  split
  · -- a quote in front would be the text's own, or what follows an empty text
    rename_i cs hcs
    cases hs : s.toList with
    | nil =>
      rw [hs, List.nil_append] at hcs
      rcases hrest with rfl | ⟨r, rfl⟩ <;> simp at hcs
    | cons c cs' => simp_all
  · rw [htake, hdrop]

theorem spells_bareOrQuoted (s : String) : Spells (bareOrQuoted s) s := by
  unfold bareOrQuoted
  split
  · exact spells_quote s
  · rename_i h
    simp only [needsQuotes, Bool.or_eq_true, List.any_eq_true, not_or, not_exists, not_and,
      decide_eq_true_eq] at h
    refine spells_self (fun hc => ?_) fun hc => ?_
    · exact (h.2 _ hc).1.1 rfl
    · exact (h.2 _ (List.mem_of_mem_head? hc)).1.2 rfl

/-! ## Written pairs -/

/-- A pair is read up to the end of its value. -/
theorem readPair?_pair {key value text : String} {rest : List Char} (hk : '=' ∉ key.toList)
    (hv : Spells value text) (hrest : Ends rest) :
    readPair? ((key ++ "=" ++ value).toList ++ rest) = some ((key, text), rest) := by
  have hcs : (key ++ "=" ++ value).toList ++ rest = key.toList ++ '=' :: (value.toList ++ rest) := by
    simp
  have hne : ∀ c ∈ key.toList, decide (c ≠ '=') = true := by
    intro c hc
    exact decide_eq_true fun h => hk (h ▸ hc)
  have htake : (key.toList ++ '=' :: (value.toList ++ rest)).takeWhile (· ≠ '=') = key.toList := by
    rw [List.takeWhile_append_of_pos hne]
    simp
  have hdrop : (key.toList ++ '=' :: (value.toList ++ rest)).dropWhile (· ≠ '=') =
      '=' :: (value.toList ++ rest) := by
    rw [List.dropWhile_append_of_pos hne]
    simp
  rw [readPair?, hcs, htake, hdrop]
  simp [hv rest hrest]

/-- A pair as it is written, and the pair that is read. -/
def Spelled (p q : String × String) : Prop := '=' ∉ p.1.toList ∧ p.1 = q.1 ∧ Spells p.2 q.2

/-- **Pairs that were written one behind the other are read one by one.** -/
theorem scan?_intercalate : ∀ {ps qs : List (String × String)}, List.Forall₂ Spelled ps qs →
    ps ≠ [] → scan? (" ".intercalate (ps.map fun p => p.1 ++ "=" ++ p.2)).toList = some qs := by
  intro ps qs h
  induction h with
  | nil => exact fun h => absurd rfl h
  | @cons p q ps qs hpq hrest ih =>
    intro _
    obtain ⟨hk, hkey, hv⟩ := hpq
    cases hrest with
    | nil =>
      refine scan?_last ?_
      have := readPair?_pair hk hv (.inl rfl)
      simpa [hkey] using this
    | @cons p' q' ps qs hpq' hrest =>
      have ih := ih (by simp)
      rw [List.map_cons, String.intercalate_cons_of_ne_nil (by simp)]
      have hends : Ends (' ' :: (" ".intercalate
        ((p' :: ps).map fun p => p.1 ++ "=" ++ p.2)).toList) := .inr ⟨_, rfl⟩
      have hread := readPair?_pair hk hv hends
      rw [String.toList_append, String.toList_append, List.append_assoc,
        show " ".toList = [' '] from rfl, List.singleton_append, scan?_more hread, ih]
      simp [hkey]

end Logging.Line
