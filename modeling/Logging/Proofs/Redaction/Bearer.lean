import Logging.Proofs.Redaction.Values

/-!
# Tokens behind the word Bearer

A token is masked as long as the word `Bearer` stands in front of it when the second sweep comes
there. An earlier match may take the word for itself: as the value of an assignment, or as the token
behind an earlier word `bearer`. Then the token is left alone.

* `stands_or_taken`: **a sweep reaches a word as it stands, or takes all of it** for a match that
  began before it.
* `kept_or_lost`: what the first two sweeps make of a text with the word at its end, with a token
  behind it or without one.
* `bearer_hidden_iff`: **a token does not show just when the word in front of it would stay**, were
  nothing behind it.
-/

namespace Logging.Secret

open Pattern

variable {r : Rule} {p : Option Char} {a w cs tail : List Char}

/-! ## Reaching a word -/

/-- What follows a word does not matter for matches that begin in front of it, and those that go on
into it go on to its end. -/
structure Reaches (r : Rule) (w : List Char) : Prop where
  ahead : ∀ {p a tail}, a ≠ [] → inWord a.getLast? = false → Stops solid.contains tail →
    r.hit? p (a ++ (w ++ tail)) = r.hit? p (a ++ w)
  whole : ∀ {p a h}, r.hit? p (a ++ w) = some h → h.taken <+: a ∨ h.taken = a ++ w

/-- A sweep reaches a word as it stands. -/
def Stands (r : Rule) (w : List Char) (p : Option Char) (a : List Char) : Prop :=
  ∃ out q, inWord q = false ∧ inWord (out.getLast?.or p) = false ∧
    ∀ tail, Stops solid.contains tail → r.sweep p (a ++ (w ++ tail)) = out ++ r.sweep q (w ++ tail)

/-- A sweep takes a word for a match that began in front of it. -/
def Taken (r : Rule) (w : List Char) (p : Option Char) (a : List Char) : Prop :=
  ∃ out, ∀ tail, Stops solid.contains tail →
    r.sweep p (a ++ (w ++ tail)) = out ++ '*' :: r.sweep none tail

/-- A sweep that has come some way stands where it would stand from there. -/
theorem stands_or_taken_step {p p' : Option Char} {a a' front : List Char}
    (hstep : ∀ tail, Stops solid.contains tail →
      r.sweep p (a ++ (w ++ tail)) = front ++ r.sweep p' (a' ++ (w ++ tail)))
    (hlast : ∀ out, inWord (out.getLast?.or p') = false →
      inWord ((front ++ out).getLast?.or p) = false)
    (h : Stands r w p' a' ∨ Taken r w p' a') : Stands r w p a ∨ Taken r w p a := by
  rcases h with ⟨out, q, hq, hout, hsweep⟩ | ⟨out, hsweep⟩
  · refine .inl ⟨front ++ out, q, hq, hlast out hout, fun tail htail => ?_⟩
    rw [hstep tail htail, hsweep tail htail, List.append_assoc]
  · refine .inr ⟨front ++ out, fun tail htail => ?_⟩
    rw [hstep tail htail, hsweep tail htail, List.append_assoc]

/-- **A sweep reaches a word as it stands, or takes it for an earlier match.** -/
theorem stands_or_taken (hr : Masks r) (hw : Reaches r w) (ha : inWord (a.getLast?.or p) = false) :
    Stands r w p a ∨ Taken r w p a := by
  induction hn : a.length using Nat.strongRecOn generalizing p a with
  | ind n ih =>
    by_cases hne : a = []
    · subst hne
      exact .inl ⟨[], p, ha, ha, fun _ _ => rfl⟩
    have hlast : inWord a.getLast? = false := by
      obtain ⟨x, hx⟩ := Option.isSome_iff_exists.1 (List.getLast?_isSome.2 hne)
      rwa [hx] at ha ⊢
    have hahead : ∀ tail, Stops solid.contains tail →
        r.hit? p (a ++ (w ++ tail)) = r.hit? p (a ++ w) := fun _ => hw.ahead hne hlast
    cases hh : r.hit? p (a ++ w) with
    | none =>
      obtain ⟨c, a, rfl⟩ := List.exists_cons_of_ne_nil hne
      rw [getLast?_cons_or] at ha
      have hstep : ∀ tail, Stops solid.contains tail →
          r.sweep p (c :: a ++ (w ++ tail)) = [c] ++ r.sweep (some c) (a ++ (w ++ tail)) :=
        fun tail htail => Rule.sweep_copy ((hahead tail htail).trans hh)
      refine stands_or_taken_step hstep (fun out hout => ?_) (ih a.length ?_ ha rfl)
      · exact (getLast?_cons_or p c out).symm ▸ hout
      · rw [← hn]
        exact Nat.lt_succ_self _
    | some h =>
      have hputlast : h.put.getLast? = some '*' := hr.put_last hh
      rcases hw.whole hh with ⟨a, rfl⟩ | hall
      · rw [getLast?_append_or (r.taken_ne_nil hh)] at ha
        have hstep : ∀ tail, Stops solid.contains tail → r.sweep p (h.taken ++ a ++ (w ++ tail)) =
            h.put ++ r.sweep h.taken.getLast? (a ++ (w ++ tail)) := by
          intro tail htail
          have hhit := (hahead tail htail).trans hh
          rw [List.append_assoc] at hhit ⊢
          exact Rule.sweep_put hhit
        refine stands_or_taken_step hstep (fun out hout => ?_) (ih a.length ?_ ha rfl)
        · rw [List.getLast?_append, hputlast]
          cases hlast : out.getLast? with
          | none => rfl
          | some x => rwa [hlast] at hout
        · have hpos := List.length_pos_iff.2 (r.taken_ne_nil hh)
          rw [List.length_append] at hn
          omega
      · obtain ⟨front, hfront⟩ := List.getLast?_eq_some_iff.1 hputlast
        refine .inr ⟨front, fun tail htail => ?_⟩
        have hhit := (hahead tail htail).trans hh
        rw [← List.append_assoc, ← hall] at hhit ⊢
        rw [Rule.sweep_put hhit, hr.sweep_stops htail _ none, hfront, List.append_assoc]
        rfl

/-- An assignment that goes on into a word takes all of it. -/
theorem reaches_assigned (hw : ∀ c ∈ w, solid.contains c = true) : Reaches assigned w where
  ahead _ _ htail := by rw [← List.append_assoc, hit_spaced htail]
  whole := by
    intro p a h hh
    obtain ⟨-, name, v, rest, hassign, rfl⟩ := assigned_hit.1 hh
    have htext : a ++ w = (name ++ '=' :: v) ++ rest := by rw [hassign.text]; simp
    rcases List.append_eq_append_iff.1 htext with ⟨more, htaken, rfl⟩ | ⟨more, rfl, -⟩
    · have hrest : rest = [] := hassign.isValue.stops.eq_nil
        fun c hc => hw c (List.mem_append_right _ hc)
      rw [hrest, List.append_nil]
      exact .inr htaken
    · exact .inl (List.prefix_append _ _)

theorem Stops.token (h : Stops solid.contains cs) : Stops Secret.token.contains cs :=
  h.mono fun _ => solid_of_token

theorem Stops.sign (h : Stops solid.contains cs) : Stops (letter '=').contains cs := by
  refine h.mono fun c hc => ?_
  obtain rfl : c = '=' := (contains_sign (by decide)).1 hc
  decide

/-- Where all that is taken for a token comes before a place, what is behind it does not matter. -/
theorem bearer_hit_append (htoken : Stops token.contains tail)
    (hpad : Stops (letter '=').contains tail)
    (hsplit : ∀ {word gap tok pad rest}, Bearing (cs ++ tail) word gap tok pad rest →
      ∃ rest', cs = (word ++ (gap ++ (tok ++ pad))) ++ rest' ∧ rest = rest' ++ tail) :
    bearer.hit? p (cs ++ tail) = bearer.hit? p cs := by
  ext h
  simp only [bearer_hit]
  refine and_congr_right fun _ => ⟨?_, ?_⟩
  · rintro ⟨word, gap, tok, pad, rest, hbear, rfl⟩
    obtain ⟨rest', rfl, rfl⟩ := hsplit hbear
    obtain ⟨hspells, hne, hgap, ⟨htok, htoks, hpads, hstops, hends⟩, -⟩ := hbear
    rw [← List.append_assoc] at hstops
    exact ⟨word, gap, tok, pad, rest', ⟨hspells, hne, hgap, ⟨htok, htoks, hpads, hstops.of_append,
      hends.of_append⟩, by simp⟩, rfl⟩
  · rintro ⟨word, gap, tok, pad, rest, ⟨hspells, hne, hgap, hpadded, rfl⟩, rfl⟩
    obtain ⟨htok, htoks, hpads, hstops, hends⟩ := hpadded
    refine ⟨word, gap, tok, pad, rest ++ tail, ⟨hspells, hne, hgap, ⟨htok, htoks, hpads, ?_,
      hends.append hpad⟩, by simp⟩, rfl⟩
    rw [← List.append_assoc]
    exact hstops.append htoken

theorem Bearing.taken_eq {word gap tok pad rest : List Char}
    (h : Bearing cs word gap tok pad rest) : cs = (word ++ (gap ++ (tok ++ pad))) ++ rest := by
  rw [h.text]
  simp

theorem Bearing.isWord {word gap tok pad rest : List Char} (h : Bearing cs word gap tok pad rest) :
    ∀ c ∈ word, Text.isWord c = true := by
  have hletters : ∀ x ∈ "bearer".toList, Text.isAsciiLetter x = true := by decide
  exact forall_of_spells h.spells fun x hx c hc => Text.isWord_of_alike (hletters x hx) hc

theorem Padded.solid {tok pad rest : List Char} (h : Padded tok pad rest) :
    ∀ c ∈ tok ++ pad, Text.isSpace c = false := by
  intro c hc
  rcases List.mem_append.1 hc with hc | hc
  · exact isSpace_of_token (h.isToken c hc)
  · obtain rfl := h.eq_sign hc
    decide

/-- No front of the word ends in anything but a letter. -/
theorem Bearing.not_front {word gap tok pad rest : List Char}
    (h : Bearing cs word gap tok pad rest) (ha : a ≠ []) (hlast : inWord a.getLast? = false) :
    ¬ a <+: word := by
  rintro ⟨more, rfl⟩
  obtain ⟨x, hx⟩ := Option.isSome_iff_exists.1 (List.getLast?_isSome.2 ha)
  have hxword := h.isWord x (List.mem_append_left _ (List.mem_of_getLast? hx))
  rw [hx] at hlast
  exact Bool.false_ne_true (hlast.symm.trans hxword)

/-- A token does not go on behind white space, so all that is taken is in front of it, unless that
is the white space behind the word `bearer` itself. -/
theorem Bearing.in_front {word gap tok pad rest : List Char}
    (h : Bearing (a ++ w ++ tail) word gap tok pad rest) (ha : a ≠ [])
    (hlast : inWord a.getLast? = false) (hne : w ≠ []) (hw : ∀ c ∈ w, token.contains c = true)
    (htail : Stops solid.contains tail) :
    ∃ rest', a ++ w = (word ++ (gap ++ (tok ++ pad))) ++ rest' ∧ rest = rest' ++ tail := by
  rcases List.append_eq_append_iff.1 h.taken_eq with ⟨more, htaken, rfl⟩ | ⟨more, hfront, rfl⟩
  case inr => exact ⟨more, hfront, rfl⟩
  cases more with
  | nil => exact ⟨[], by simpa using htaken.symm, rfl⟩
  | cons s more =>
    exfalso
    have hs : Text.isSpace s = true := by
      have hs : (!Text.isSpace s) = false := htail s rfl
      simpa using hs
    have hword := h.not_front ha hlast
    rcases List.append_eq_append_iff.1 htaken with ⟨mid, haw, hrest⟩ | ⟨mid, rfl, -⟩
    case inr => exact hword ⟨w ++ mid, by simp⟩
    have hmid : mid ≠ [] := by
      rintro rfl
      exact hword ⟨w, by simpa using haw⟩
    rcases List.append_eq_append_iff.1 hrest with ⟨more', -, hpadded⟩ | ⟨more', rfl, -⟩
    · have hclear := h.padded.solid s (by rw [hpadded]; simp)
      rw [hs] at hclear
      cases hclear
    · have hends := congrArg List.getLast? haw
      rw [List.getLast?_append_of_ne_nil a hne, List.getLast?_append_of_ne_nil word hmid] at hends
      obtain ⟨x, hx⟩ := Option.isSome_iff_exists.1 (List.getLast?_isSome.2 hne)
      have hspace := h.isGap x (List.mem_append_left _ (List.mem_of_getLast? (hends.symm.trans hx)))
      have htoken := hw x (List.mem_of_getLast? hx)
      rw [token_of_space hspace] at htoken
      cases htoken

/-- A token that goes on into a word takes all of it. -/
theorem reaches_bearer (hne : w ≠ []) (hw : ∀ c ∈ w, token.contains c = true) :
    Reaches bearer w where
  ahead := by
    intro p a tail ha hlast htail
    rw [← List.append_assoc]
    exact bearer_hit_append htail.token htail.sign fun hbear => hbear.in_front ha hlast hne hw htail
  whole := by
    intro p a h hh
    obtain ⟨-, word, gap, tok, pad, rest, hbear, rfl⟩ := bearer_hit.1 hh
    rcases List.append_eq_append_iff.1 hbear.taken_eq with ⟨more, htaken, rfl⟩ | ⟨more, rfl, -⟩
    case inr => exact .inl (List.prefix_append _ _)
    by_cases hmore : more = []
    · subst hmore
      rw [List.append_nil] at htaken
      exact .inl (htaken ▸ List.prefix_refl a)
    -- The last character that is taken is one of the word, so it is not an equals sign.
    have hpad : pad = [] := by
      rcases List.eq_nil_or_concat' pad with hnil | ⟨signs, x, rfl⟩
      · exact hnil
      · have hlast := congrArg List.getLast? htaken
        rw [← List.append_assoc, ← List.append_assoc, ← List.append_assoc, List.getLast?_concat,
          List.getLast?_append_of_ne_nil a hmore] at hlast
        have hx := hw x (List.mem_append_left rest (List.mem_of_getLast? hlast.symm))
        obtain rfl : x = '=' := hbear.padded.eq_sign (by simp)
        exact absurd hx (by decide)
    subst hpad
    have hrest : rest = [] := hbear.padded.stops.eq_nil
      fun c hc => hw c (List.mem_append_right more hc)
    rw [hrest, List.append_nil more]
    exact .inr htaken

/-! ## Texts that a sweep leaves as they are -/

theorem assigned_sweep_plain (h : '=' ∉ cs) (p : Option Char) : assigned.sweep p cs = cs := by
  refine Rule.sweep_eq_self (fun p rest hrest => ?_) p
  cases hh : assigned.hit? p rest with
  | none => rfl
  | some hit =>
    obtain ⟨-, name, v, rest', hassign, -⟩ := assigned_hit.1 hh
    exact absurd (hrest.subset (by rw [hassign.text]; simp)) h

theorem bearer_sweep_solid (h : ∀ c ∈ cs, solid.contains c = true) (p : Option Char) :
    bearer.sweep p cs = cs := by
  refine Rule.sweep_eq_self (fun p rest hrest => ?_) p
  cases hh : bearer.hit? p rest with
  | none => rfl
  | some hit =>
    obtain ⟨-, word, gap, tok, pad, rest', hbear, -⟩ := bearer_hit.1 hh
    obtain ⟨c, gap, rfl⟩ := List.exists_cons_of_ne_nil hbear.ne_nil
    have hc : (!Text.isSpace c) = true := h c (hrest.subset (by rw [hbear.text]; simp))
    rw [hbear.isGap c List.mem_cons_self] at hc
    cases hc

theorem accessKey_sweep_short (h : cs.length < keyWord.length) (p : Option Char) :
    accessKey.sweep p cs = cs := by
  refine Rule.sweep_eq_self (fun p rest hrest => ?_) p
  cases hh : accessKey.hit? p rest with
  | none => rfl
  | some hit =>
    obtain ⟨-, key, rest', hkey, -⟩ := accessKey_hit.1 hh
    have hlength := hrest.length_le
    rw [hkey.text, List.length_append, hkey.length] at hlength
    omega

theorem Bearing.star_notMem {word gap tok pad rest : List Char}
    (h : Bearing cs word gap tok pad rest) : '*' ∉ word ++ (gap ++ (tok ++ pad)) := by
  intro hmem
  rcases List.mem_append.1 hmem with hword | hmem
  · exact absurd (h.isWord '*' hword) (by decide)
  rcases List.mem_append.1 hmem with hgap | hmem
  · exact absurd (h.isGap '*' hgap) (by decide)
  rcases List.mem_append.1 hmem with htok | hpad
  · exact absurd (h.padded.isToken '*' htok) (by decide)
  · exact absurd (h.padded.isPad '*' hpad) (by decide)

/-- The second sweep looks no further than an asterisk. -/
theorem bearer_sweep_star (p : Option Char) (cs rest : List Char) :
    bearer.sweep p (cs ++ '*' :: rest) =
      bearer.sweep p cs ++ '*' :: bearer.sweep (some '*') rest := by
  have hhit : ∀ p cs, bearer.hit? p (cs ++ '*' :: rest) = bearer.hit? p cs := by
    intro p cs
    have hstar : ∀ {f : Char → Bool}, f '*' = false → Stops f ('*' :: rest) :=
      fun hf => stops_cons hf rest
    refine bearer_hit_append (hstar (by decide)) (hstar (by decide)) fun hbear => ?_
    refine split_run (f := (· != '*')) (fun c hc => ?_) (hstar rfl) hbear.taken_eq
    have hne : c ≠ '*' := fun heq => hbear.star_notMem (heq ▸ hc)
    simpa using hne
  rw [Rule.sweep_append hhit, masks_bearer.sweep_cons (by decide)]

/-- The third sweep looks no further than a character that is none of a word. -/
theorem accessKey_sweep_edge {x : Char} (hx : Text.isWord x = false) (p : Option Char)
    (cs rest : List Char) : accessKey.sweep p (cs ++ x :: rest) =
      accessKey.sweep p cs ++ x :: accessKey.sweep (some x) rest := by
  have hhit : ∀ p cs, accessKey.hit? p (cs ++ x :: rest) = accessKey.hit? p cs := by
    intro p cs
    ext h
    simp only [accessKey_hit]
    refine and_congr_right fun _ => ⟨?_, ?_⟩
    · rintro ⟨key, rest', hkey, rfl⟩
      obtain ⟨rest', rfl, rfl⟩ := split_run hkey.isWord (stops_cons hx rest) hkey.text
      refine ⟨key, rest', ⟨hkey.length, hkey.isKey, ?_, rfl⟩, rfl⟩
      cases rest' with
      | nil => rfl
      | cons c rest' => exact hkey.ends
    · rintro ⟨key, rest', ⟨hlength, hkey, hends, rfl⟩, rfl⟩
      refine ⟨key, rest' ++ x :: rest, ⟨hlength, hkey, ?_, List.append_assoc _ _ _⟩, rfl⟩
      cases rest' with
      | nil => exact hx
      | cons c rest' => exact hends
  have hinitial : x ∉ initials := by
    intro hmem
    rw [isWord_of_initial hmem] at hx
    cases hx
  rw [Rule.sweep_append hhit, masks_accessKey.sweep_cons hinitial]

/-! ## The word and a token -/

/-- The word in front of a token, as it is written. -/
def bearerWord : List Char := "Bearer".toList

/-- What the first two sweeps make of a text. -/
def swept (cs : List Char) : List Char := bearer.sweep none (assigned.sweep none cs)

/-- A token of ASCII letters and digits. -/
def Alphanumeric (t : String) : Prop :=
  t ≠ "" ∧ ∀ c ∈ t.toList, (Text.isAsciiLetter c || Text.isAsciiDigit c) = true

instance (t : String) : Decidable (Alphanumeric t) := inferInstanceAs (Decidable (_ ∧ _))

theorem Alphanumeric.token {t : String} (ht : Alphanumeric t) :
    ∀ c ∈ t.toList, Secret.token.contains c = true := by
  intro c hc
  have hc := ht.2 c hc
  have hsigns : tokenSigns.contains c = true := by
    simp only [Text.isAsciiLetter, Text.isAsciiDigit, Bool.or_eq_true, decide_eq_true_eq] at hc
    simp only [tokenSigns, CharSet.contains, Bool.or_eq_true, Bool.and_eq_true, decide_eq_true_eq]
    tauto
  exact Bool.or_eq_true _ _ |>.mpr (.inl hsigns)

/-- The word stands behind the first two sweeps, and a token behind it is masked. -/
def Kept (u : List Char) : Prop :=
  ∃ out, inWord out.getLast? = false ∧ swept (u ++ bearerWord) = out ++ bearerWord ∧
    ∀ t : String, Alphanumeric t → ∀ v, Stops solid.contains v →
      swept (u ++ (bearerWord ++ ' ' :: (t.toList ++ v))) = out ++ ("Bearer ***".toList ++ swept v)

/-- The word has been taken for an earlier match, and what follows it is left as it is. -/
def Lost (u : List Char) : Prop :=
  ∃ out, ∀ tail, Stops solid.contains tail → (∀ c ∈ tail, c ∉ initials) →
    swept (u ++ (bearerWord ++ tail)) = out ++ '*' :: tail

/-- What is masked for a token behind the word. -/
theorem bearer_sweep_token {t : String} (ht : Alphanumeric t) {p : Option Char}
    (hp : inWord p = false) {v : List Char} (hv : Stops solid.contains v) :
    bearer.sweep p (bearerWord ++ ' ' :: (t.toList ++ v)) =
      "Bearer ***".toList ++ bearer.sweep none v := by
  have htok : t.toList ≠ [] := by simpa using ht.1
  have hspells : Spells bearerWord "bearer" := by
    unfold Spells
    decide
  have hpadded : Padded t.toList [] v := ⟨htok, ht.token, by simp, hv.token, hv.sign⟩
  have hbear : Bearing (bearerWord ++ ' ' :: (t.toList ++ v)) bearerWord [' '] t.toList [] v :=
    ⟨hspells, by simp, by decide, hpadded, rfl⟩
  have hhit := bearer_hit.2 ⟨hp, _, _, _, _, _, hbear, rfl⟩
  rw [hbear.taken_eq] at hhit ⊢
  rw [Rule.sweep_put hhit, masks_bearer.sweep_stops hv _ none]

/-- There is no assignment in a token. -/
theorem assigned_sweep_token {t : String} (ht : Alphanumeric t) {v : List Char}
    (hv : Stops solid.contains v) : assigned.sweep none (' ' :: (t.toList ++ v)) =
      ' ' :: (t.toList ++ assigned.sweep none v) := by
  have hequals : '=' ∉ ' ' :: t.toList := by
    intro hmem
    rcases List.mem_cons.1 hmem with hblank | hmem
    · cases hblank
    · exact absurd (ht.2 '=' hmem) (by decide)
  have hspaced := sweep_spaced hv none (' ' :: t.toList)
  rwa [assigned_sweep_plain hequals] at hspaced

/-- Where both sweeps reach the word as it stands, it is kept. -/
theorem kept_of_stands {u front : List Char}
    (hfirst : ∀ tail, Stops solid.contains tail →
      assigned.sweep none (u ++ (bearerWord ++ tail)) =
        front ++ (bearerWord ++ assigned.sweep none tail))
    (hsecond : Stands bearer bearerWord none front) : Kept u := by
  obtain ⟨out, q, hq, hout, hsweep⟩ := hsecond
  refine ⟨out, by rwa [Option.or_none] at hout, ?_, fun t ht v hv => ?_⟩
  · have hplain : bearer.sweep q bearerWord = bearerWord := bearer_sweep_solid (by decide) q
    have hword := hfirst [] (stops_nil _)
    have hword' := hsweep [] (stops_nil _)
    rw [Rule.sweep_nil, List.append_nil] at hword
    rw [List.append_nil, hplain] at hword'
    rw [swept, hword, hword']
  · rw [swept, hfirst _ (stops_cons (by decide) _), assigned_sweep_token ht hv,
      hsweep _ (stops_cons (by decide) _),
      bearer_sweep_token ht hq (masks_assigned.stops_sweep hv none)]
    rfl

/-- **The word is kept in front of the token, or it is lost** to an earlier match. -/
theorem kept_or_lost {u : List Char} (hu : inWord u.getLast? = false) : Kept u ∨ Lost u := by
  have hassigned : Reaches assigned bearerWord := reaches_assigned (by decide)
  have hbearer : Reaches bearer bearerWord := reaches_bearer (by decide) (by decide)
  rcases stands_or_taken masks_assigned hassigned (p := none) (by rwa [Option.or_none]) with
    ⟨front, q, -, hfront, hsweep⟩ | ⟨front, hsweep⟩
  · have hfirst : ∀ tail, Stops solid.contains tail →
        assigned.sweep none (u ++ (bearerWord ++ tail)) =
          front ++ (bearerWord ++ assigned.sweep none tail) := by
      intro tail htail
      rw [hsweep tail htail, sweep_spaced htail, assigned_sweep_plain (by decide)]
    rcases stands_or_taken masks_bearer hbearer hfront with hstands | ⟨out, hsweep'⟩
    · exact .inl (kept_of_stands hfirst hstands)
    · refine .inr ⟨out, fun tail htail hinitial => ?_⟩
      rw [swept, hfirst tail htail, masks_assigned.sweep_of_notMem hinitial, hsweep' tail htail,
        masks_bearer.sweep_of_notMem hinitial]
  · refine .inr ⟨bearer.sweep none front, fun tail htail hinitial => ?_⟩
    rw [swept, hsweep tail htail, masks_assigned.sweep_of_notMem hinitial, bearer_sweep_star,
      masks_bearer.sweep_of_notMem hinitial]

/-! ## Tokens -/

theorem toList_redact (text : String) :
    (preset.redact text).toList = accessKey.sweep none (swept text.toList) := by
  rw [redact_preset, String.toList_ofList, swept]

theorem toList_word (u : String) : (u ++ "Bearer").toList = u.toList ++ bearerWord :=
  String.toList_append

theorem toList_token (u t v : String) : (u ++ "Bearer " ++ t ++ v).toList =
    u.toList ++ (bearerWord ++ ' ' :: (t.toList ++ v.toList)) := by
  simp [String.toList_append, bearerWord]

/-- The third sweep leaves a word behind the edge of a word. -/
theorem suffix_of_kept {out : List Char} (hout : inWord out.getLast? = false) :
    bearerWord <:+ accessKey.sweep none (out ++ bearerWord) := by
  have hword : ∀ p, accessKey.sweep p bearerWord = bearerWord := accessKey_sweep_short (by decide)
  rcases List.eq_nil_or_concat' out with rfl | ⟨front, x, rfl⟩
  · exact ⟨[], by rw [List.nil_append, hword]⟩
  · rw [List.getLast?_concat] at hout
    rw [List.append_assoc, List.singleton_append, accessKey_sweep_edge hout, hword]
    exact ⟨accessKey.sweep none front ++ [x], by simp⟩

/-- What is behind a word that is lost is left as it is by all three sweeps. -/
theorem redact_of_lost {u : List Char} (hu : Lost u) : ∃ out, ∀ tail, Stops solid.contains tail →
    (∀ c ∈ tail, c ∉ initials) →
      accessKey.sweep none (swept (u ++ (bearerWord ++ tail))) = out ++ '*' :: tail := by
  obtain ⟨out, hout⟩ := hu
  refine ⟨accessKey.sweep none out, fun tail htail hinitial => ?_⟩
  rw [hout tail htail hinitial, accessKey_sweep_edge (by decide),
    masks_accessKey.sweep_of_notMem hinitial]

/-- **A token does not show just when the word in front of it would stay**, were nothing behind
it. -/
theorem bearer_hidden_iff (u : String) (hu : OpenEnded u) :
    ∃ chain, RedactorChain.commonSecrets = .ok chain ∧
      ((∀ t t' v : String, Alphanumeric t → Alphanumeric t' → Spaced v →
          chain.redact (u ++ "Bearer " ++ t ++ v) = chain.redact (u ++ "Bearer " ++ t' ++ v)) ↔
        "Bearer".toList <:+ (chain.redact (u ++ "Bearer")).toList) := by
  refine ⟨preset, commonSecrets_eq, ?_⟩
  rcases kept_or_lost hu with ⟨out, hout, hkept, htoken⟩ | hlost
  · refine iff_of_true (fun t t' v ht ht' hv => ?_) ?_
    · rw [← String.toList_inj, toList_redact, toList_redact, toList_token, toList_token,
        htoken t ht _ hv.stops, htoken t' ht' _ hv.stops]
    · rw [toList_redact, toList_word, hkept]
      exact suffix_of_kept hout
  · obtain ⟨out, hout⟩ := redact_of_lost hlost
    refine iff_of_false (fun h => ?_) fun h => ?_
    · -- The tokens `x` and `y` stay as they are.
      have hsame := congrArg String.toList (h "x" "y" "" (by decide) (by decide) (by decide))
      rw [toList_redact, toList_redact, toList_token, toList_token,
        hout _ (stops_cons (by decide) _) (by decide),
        hout _ (stops_cons (by decide) _) (by decide)] at hsame
      exact absurd (List.append_cancel_left hsame) (by decide)
    · -- What is left ends in an asterisk.
      have hword := hout [] (stops_nil _) (by simp)
      rw [List.append_nil] at hword
      rw [toList_redact, toList_word, hword] at h
      obtain ⟨front, hfront⟩ := h
      have hlast := congrArg List.getLast? hfront
      rw [List.getLast?_concat, List.getLast?_append_of_ne_nil front (by decide)] at hlast
      cases hlast

set_option maxRecDepth 100000 in
/-- In a header the word is kept, and no token shows. -/
theorem bearer_hidden_header : OpenEnded "Authorization: " ∧
    ∃ chain, RedactorChain.commonSecrets = .ok chain ∧
      chain.redact ("Authorization: " ++ "Bearer " ++ "abc" ++ " ok") =
        chain.redact ("Authorization: " ++ "Bearer " ++ "xyz" ++ " ok") := by
  have hopen : OpenEnded "Authorization: " := by decide
  obtain ⟨chain, hchain, h⟩ := bearer_hidden_iff "Authorization: " hopen
  obtain rfl : preset = chain := Except.ok.inj (commonSecrets_eq.symm.trans hchain)
  have hkept : "Bearer".toList <:+ (preset.redact ("Authorization: " ++ "Bearer")).toList := by
    decide +kernel
  exact ⟨hopen, preset, hchain, h.2 hkept "abc" "xyz" " ok" (by decide) (by decide) (by decide)⟩

set_option maxRecDepth 100000 in
/-- Behind an equals sign the word is masked as a value, and the token shows. -/
theorem bearer_shows : ∃ chain, RedactorChain.commonSecrets = .ok chain ∧
    OpenEnded "password=" ∧ Alphanumeric "abc" ∧ Alphanumeric "xyz" ∧ Spaced "" ∧
      chain.redact ("password=" ++ "Bearer " ++ "abc" ++ "") ≠
        chain.redact ("password=" ++ "Bearer " ++ "xyz" ++ "") :=
  ⟨preset, commonSecrets_eq, by decide, by decide, by decide, by decide, by decide +kernel⟩

end Logging.Secret
