import Logging.Proofs.Redaction.Masks
import Logging.Proofs.Redaction.Matching

/-!
# Masking what is masked

A text is settled for a rule when no match of the rule, wherever it begins, changes it. Each rule
settles its own result, and the sweeps of the later rules keep what an earlier one has settled: what
a match takes from the result of a sweep, up to the value or the token, was copied there.

* `Settled`: no match of a rule changes a text. `Settled.sweep_eq`: a sweep leaves such a text as it
  is.
* `Carries`: a match in front of a copied character was there before the sweep.
* `settled_sweep`: **the result of a sweep is settled**, for the rule itself and for what the text
  was settled for.
* `commonSecrets_idempotent`: **what has been masked stays as it is**, under the chain and under
  each rule.
-/

namespace Logging.Secret

open Pattern

/-! ## Settled texts -/

/-- A match in front of a text changes nothing. -/
def Quiet (q : Rule) (p : Option Char) (cs : List Char) : Prop :=
  ∀ h, q.hit? p cs = some h → h.put = h.taken

/-- No match changes a text, wherever it begins. -/
def Settled (q : Rule) : Option Char → List Char → Prop
  | _, [] => True
  | p, c :: cs => Quiet q p (c :: cs) ∧ Settled q (some c) cs

section Settled

variable {q r : Rule} {p o : Option Char} {c : Char} {a b cs : List Char}

theorem Settled.quiet (h : Settled q p cs) : Quiet q p cs := by
  cases cs with
  | nil => intro hit hh; rw [q.hit?_nil] at hh; cases hh
  | cons c cs => exact h.1

theorem Settled.behind (ha : a ≠ []) (h : Settled q p (a ++ b)) : Settled q a.getLast? b := by
  induction a generalizing p with
  | nil => exact absurd rfl ha
  | cons c a ih =>
    cases a with
    | nil => exact h.2
    | cons d a => exact ih (by simp) h.2

/-- A sweep leaves a settled text as it is. -/
theorem Settled.sweep_eq (h : Settled q p cs) : q.sweep p cs = cs := by
  induction p, cs using Rule.induction q with
  | nil p => exact Rule.sweep_nil q p
  | copy p c cs hh ih => rw [Rule.sweep_copy hh, ih h.2]
  | put p taken put rest hh ih =>
    obtain rfl : put = taken := h.quiet _ hh
    rw [Rule.sweep_put hh, ih (h.behind (q.taken_ne_nil hh))]

/-- In a tight text nothing begins, its first character apart. -/
theorem settled_of_tight (hq : Masks q) (ha : Tight a) (hne : a ≠ []) (hquiet : Quiet q o (a ++ b))
    (hb : Settled q a.getLast? b) : Settled q o (a ++ b) := by
  induction a generalizing o with
  | nil => exact absurd rfl hne
  | cons c a ih =>
    refine ⟨hquiet, ?_⟩
    cases a with
    | nil => exact hb
    | cons d a =>
      obtain ⟨hjoined, htight⟩ := List.isChain_cons_cons.1 ha
      refine ih htight (by simp) (fun h hh => ?_) hb
      have hnone : q.hit? (some c) (d :: (a ++ b)) = none :=
        hjoined.elim (fun hc => hq.hit?_of_inWord hc) hq.hit?_of_notMem
      rw [List.cons_append, hnone] at hh
      cases hh

end Settled

/-! ## Sweeps -/

/-- The character in front of a place before and after a sweep: the same one, or an asterisk where a
match ended. -/
def Sync (p o : Option Char) (cs : List Char) : Prop :=
  o = p ∨ o = some '*' ∧ ∀ c ∈ initials, cs.head? = some c → inWord p = false

theorem Sync.outside {p o : Option Char} {c : Char} {cs : List Char} (h : Sync p o (c :: cs))
    (ho : inWord o = false) (hc : c ∈ initials) : inWord p = false := by
  rcases h with rfl | ⟨-, h⟩
  · exact ho
  · exact h c hc rfl

/-- A match in front of a copied character was there before the sweep. -/
def Carries (q : Rule) : Prop := ∀ {r : Rule} {p o : Option Char} {c : Char} {cs : List Char},
  Masks r → Sync p o (c :: cs) → Quiet q p (c :: cs) → Quiet q o (c :: r.sweep (some c) cs)

/-- A match that begins with what a sweep has put changes nothing. -/
def Spares (q r : Rule) : Prop := ∀ {p o : Option Char} {taken put rest : List Char},
  r.hit? p (taken ++ rest) = some ⟨taken, put⟩ → Quiet q o (put ++ r.sweep taken.getLast? rest)

/-- **The result of a sweep is settled**, for the rule itself and for what the text was settled
for. -/
theorem settled_sweep {q r : Rule} (hq : Masks q) (hr : Masks r) (hcarries : Carries q)
    (hspares : Spares q r) {p : Option Char} {cs : List Char} (hcs : q = r ∨ Settled q p cs) :
    Settled q p (r.sweep p cs) := by
  suffices h : ∀ o, Sync p o cs → Settled q o (r.sweep p cs) from h p (.inl rfl)
  induction p, cs using Rule.induction r with
  | nil p => intro o _; rw [Rule.sweep_nil]; trivial
  | copy p c cs hh ih =>
    intro o hsync
    have hquiet : Quiet q p (c :: cs) := by
      rcases hcs with rfl | hcs
      · intro h hh'
        rw [hh] at hh'
        cases hh'
      · exact hcs.1
    rw [Rule.sweep_copy hh]
    exact ⟨hcarries hr hsync hquiet, ih (hcs.imp_right And.right) _ (.inl rfl)⟩
  | put p taken put rest hh ih =>
    intro o _
    have hlast : put.getLast? = some '*' := hr.put_last hh
    have hne : put ≠ [] := by rintro rfl; cases hlast
    have hrest : Settled q (some '*') (r.sweep taken.getLast? rest) :=
      ih (hcs.imp_right (·.behind (r.taken_ne_nil hh))) _ (.inr ⟨rfl, hr.parted hh⟩)
    rw [Rule.sweep_put hh]
    exact settled_of_tight hq (hr.put_tight hh) hne (hspares hh) (hlast ▸ hrest)

/-! ## Matches in front of copied characters -/

/-- A value that a sweep has left, or made, was a value before it. -/
theorem value_before {r : Rule} (hr : Masks r) {p : Option Char} {cs v rest : List Char}
    (hv : IsValue v rest) (h : r.sweep p cs = v ++ rest) :
    ∃ v' rest', IsValue v' rest' ∧ cs = v' ++ rest' := by
  refine ⟨_, _, ⟨fun hnone => ?_, fun _ hc => List.mem_takeWhile_imp hc, stops_dropWhile _ _⟩,
    List.takeWhile_append_dropWhile.symm⟩
  have hstops : Stops solid.contains cs := by
    have hdrop := stops_dropWhile solid.contains cs
    have hsplit := List.takeWhile_append_dropWhile (p := solid.contains) (l := cs)
    rw [hnone, List.nil_append] at hsplit
    rwa [hsplit] at hdrop
  have hswept := hr.stops_sweep hstops p
  obtain ⟨c, v, rfl⟩ := List.exists_cons_of_ne_nil hv.ne_nil
  have hc := hswept c (by rw [h]; rfl)
  rw [hv.solid c List.mem_cons_self] at hc
  cases hc

theorem carries_assigned : Carries assigned := by
  intro r p o c cs hr hsync hquiet h hh
  obtain ⟨ho, name, v, rest, hassign, rfl⟩ := assigned_hit.1 hh
  obtain ⟨d, hd, name, rfl⟩ := hassign.isName.begins
  obtain ⟨rfl, htext⟩ := List.cons.inj hassign.text
  have hout := hsync.outside ho hd
  -- The name and the equals sign have been copied.
  have hname : Tight (c :: name) := (List.isChain_append.1 hassign.isName.tight).1
  have htight : Tight (c :: (name ++ ['='])) :=
    tight_append (a := c :: name) hname (by decide) (by decide)
  have hfront : name ++ ['='] <+: r.sweep (some c) cs := ⟨v ++ rest, by rw [htext]; simp⟩
  obtain ⟨cs, rfl, hsweep⟩ := hr.copies htight hfront
  have hlast : (c :: (name ++ ['='])).getLast? = some '=' := List.getLast?_concat (l := c :: name)
  have hvalue : r.sweep (some '=') cs = v ++ rest := by
    rw [htext, hlast] at hsweep
    simpa using hsweep.symm
  obtain ⟨v', rest', hv', rfl⟩ := value_before hr hassign.isValue hvalue
  have hbefore : Assignment (c :: (name ++ ['='] ++ (v' ++ rest'))) (c :: name) v' rest' :=
    ⟨hassign.isName, hv', by simp⟩
  have hsame := hquiet _ (assigned_hit.2 ⟨hout, _, _, _, hbefore, rfl⟩)
  obtain rfl : v' = "***".toList := by simpa using hsame.symm
  have hstars : r.sweep (some '=') ("***".toList ++ rest') =
      "***".toList ++ r.sweep (some '*') rest' := by
    have hnone : '*' ∉ initials := by decide
    show r.sweep (some '=') ('*' :: '*' :: '*' :: rest') = _
    rw [hr.sweep_cons hnone, hr.sweep_cons hnone, hr.sweep_cons hnone]
    rfl
  have hrun := congrArg (List.takeWhile solid.contains) (hstars.symm.trans hvalue)
  rw [takeWhile_run hv'.solid (hr.stops_sweep hv'.stops _),
    takeWhile_run hassign.isValue.solid hassign.isValue.stops] at hrun
  rw [← hrun]
  rfl

theorem Bearing.changes {cs word gap tok pad rest : List Char}
    (h : Bearing cs word gap tok pad rest) :
    "Bearer ***".toList ≠ word ++ (gap ++ (tok ++ pad)) := by
  intro heq
  have hlast := congrArg List.getLast? heq
  have hne : tok ++ pad ≠ [] := List.append_ne_nil_of_left_ne_nil h.padded.ne_nil pad
  rw [List.getLast?_append_of_ne_nil _ (List.append_ne_nil_of_right_ne_nil _ hne),
    List.getLast?_append_of_ne_nil _ hne] at hlast
  rcases List.mem_append.1 (List.mem_of_getLast? hlast.symm) with htok | hpad
  · exact absurd (h.padded.isToken _ htok) (by decide)
  · exact absurd (h.padded.isPad _ hpad) (by decide)

/-- A token that a sweep has left, or begun, was begun before it. -/
theorem token_before {r : Rule} (hr : Masks r) {p : Option Char} {cs tok pad rest : List Char}
    (htok : Padded tok pad rest) (h : r.sweep p cs = tok ++ (pad ++ rest)) :
    ∃ tok' pad' rest', Padded tok' pad' rest' ∧ cs = tok' ++ (pad' ++ rest') := by
  obtain ⟨x, tok, rfl⟩ := List.exists_cons_of_ne_nil htok.ne_nil
  obtain ⟨c, cs, rfl, hc⟩ : ∃ c cs', cs = c :: cs' ∧ token.contains c = true := by
    cases cs with
    | nil => rw [Rule.sweep_nil] at h; cases h
    | cons c cs =>
      refine ⟨c, cs, rfl, ?_⟩
      cases hh : r.hit? p (c :: cs) with
      | none =>
        rw [Rule.sweep_copy hh] at h
        obtain ⟨rfl, -⟩ := List.cons.inj h
        exact htok.isToken _ List.mem_cons_self
      | some hit =>
        by_contra hc
        rw [hr.hit?_of_notMem fun hmem => hc (token_of_initial c hmem)] at hh
        cases hh
  have hne : (c :: cs).takeWhile token.contains ≠ [] := by
    rw [List.takeWhile_cons_of_pos hc]
    exact List.cons_ne_nil _ _
  obtain ⟨taken, htaken⟩ : ∃ taken, padded? (c :: cs) = some taken := by
    simp only [padded?, if_neg hne]
    exact ⟨_, rfl⟩
  obtain ⟨tok', pad', rest', hpadded, htext, -⟩ := padded?_eq_some.1 htaken
  exact ⟨tok', pad', rest', hpadded, htext⟩

theorem carries_bearer : Carries bearer := by
  intro r p o c cs hr hsync hquiet h hh
  obtain ⟨ho, word, gap, tok, pad, rest, hbear, rfl⟩ := bearer_hit.1 hh
  obtain ⟨d, hd, word, rfl⟩ := hbear.begins
  obtain ⟨rfl, htext⟩ := List.cons.inj hbear.text
  have hout := hsync.outside ho hd
  -- The word and the white space have been copied.
  have hgap : ∀ x ∈ gap, x ∉ initials := fun x hx => notMem_initials_of_space (hbear.isGap x hx)
  have htight : Tight (c :: (word ++ gap)) := by
    refine tight_append (a := c :: word) (tight_of_spells List.mem_cons_self hbear.spells) ?_ ?_
    · exact tight_of_forall fun _ _ y hy => .inr (hgap y hy)
    · exact fun x hx hhead => hgap x (List.mem_of_head? hhead) hx
  have hfront : word ++ gap <+: r.sweep (some c) cs :=
    ⟨tok ++ (pad ++ rest), by rw [htext]; simp⟩
  obtain ⟨cs, rfl, hsweep⟩ := hr.copies htight hfront
  rw [htext] at hsweep
  have htoken : r.sweep (c :: (word ++ gap)).getLast? cs = tok ++ (pad ++ rest) := by
    simpa using hsweep.symm
  obtain ⟨tok', pad', rest', hpadded, rfl⟩ := token_before hr hbear.padded htoken
  have hbefore : Bearing (c :: (word ++ gap ++ (tok' ++ (pad' ++ rest')))) (c :: word) gap tok' pad'
      rest' := ⟨hbear.spells, hbear.ne_nil, hbear.isGap, hpadded, by simp⟩
  exact absurd (hquiet _ (bearer_hit.2 ⟨hout, _, _, _, _, _, hbefore, rfl⟩)) hbefore.changes

theorem Keyed.changes {cs key rest : List Char} (h : Keyed cs key rest) :
    "AKIA****************".toList ≠ key := by
  rintro rfl
  exact absurd (h.isWord '*' (by decide)) (by decide)

theorem carries_accessKey : Carries accessKey := by
  intro r p o c cs hr hsync hquiet h hh
  obtain ⟨ho, key, rest, hkey, rfl⟩ := accessKey_hit.1 hh
  obtain ⟨key, rfl⟩ := hkey.begins
  obtain ⟨rfl, htext⟩ := List.cons.inj hkey.text
  have hout := hsync.outside ho (by decide)
  have htight : Tight ('A' :: key) := tight_of_forall fun x hx _ _ => .inl (hkey.isWord x hx)
  obtain ⟨cs, rfl, hsweep⟩ := hr.copies htight ⟨rest, htext.symm⟩
  -- Nothing begins behind the last character of the key.
  obtain ⟨x, hx, hlast⟩ : ∃ x, inWord (some x) = true ∧ ('A' :: key).getLast? = some x := by
    have hne : 'A' :: key ≠ [] := List.cons_ne_nil _ _
    exact ⟨_, hkey.isWord _ (List.getLast_mem hne), List.getLast?_eq_some_getLast hne⟩
  have hrest : rest.head? = cs.head? := by
    rw [htext, hlast] at hsweep
    rw [List.append_cancel_left hsweep]
    cases cs with
    | nil => rw [Rule.sweep_nil]
    | cons d cs => rw [Rule.sweep_copy (hr.hit?_of_inWord hx)]; rfl
  have hbefore : Keyed ('A' :: (key ++ cs)) ('A' :: key) cs :=
    ⟨hkey.length, hkey.isKey, hrest ▸ hkey.ends, rfl⟩
  exact absurd (hquiet _ (accessKey_hit.2 ⟨hout, _, _, hbefore, rfl⟩)) hbefore.changes

/-! ## Matches in front of what was put -/

theorem spares_assigned : Spares assigned assigned := by
  intro p o taken put rest hh h hh'
  obtain ⟨-, name, v, rest', hassign, heq⟩ := assigned_hit.1 hh
  obtain ⟨-, name', v', rest'', hassign', rfl⟩ := assigned_hit.1 hh'
  cases heq
  obtain rfl : rest = rest' := by simpa using hassign.text
  have hstars : IsValue "***".toList (assigned.sweep (name ++ '=' :: v).getLast? rest) :=
    ⟨by decide, by decide, masks_assigned.stops_sweep hassign.isValue.stops _⟩
  obtain ⟨rfl, rfl⟩ := hassign'.unique ⟨hassign.isName, hstars, by simp⟩
  rfl

theorem fits_front {w : List CharSet} {a b : List Char} (h : fits w (a ++ b) = true) :
    fits (w.take a.length) a = true := by
  induction w generalizing a with
  | nil => rw [List.take_nil]; rfl
  | cons s w ih =>
    cases a with
    | nil => rfl
    | cons c a =>
      obtain ⟨hc, hrest⟩ := Bool.and_eq_true_iff.1 h
      exact Bool.and_eq_true_iff.2 ⟨hc, ih hrest⟩

/-- What does not begin like a match is spared. -/
theorem spares_of_front {q r : Rule} {ws : List (List CharSet)} {put : List Char}
    (hq : ∀ {p cs h}, q.hit? p cs = some h → ∃ w ∈ ws, fits w cs = true)
    (hr : ∀ {p cs h}, r.hit? p cs = some h → h.put = put)
    (hws : ∀ w ∈ ws, fits (w.take put.length) put = false) : Spares q r := by
  intro p o taken put' rest hh h hh'
  obtain rfl : put' = put := hr hh
  obtain ⟨w, hw, hfits⟩ := hq hh'
  have hnone := hws w hw
  rw [fits_front hfits] at hnone
  cases hnone

theorem front_assigned {p : Option Char} {cs : List Char} {h : Hit}
    (hh : assigned.hit? p cs = some h) : ∃ w ∈ names.map spelled, fits w cs = true := by
  obtain ⟨-, name, v, rest, hassign, rfl⟩ := assigned_hit.1 hh
  obtain ⟨n, hn, hspells⟩ := hassign.isName
  refine ⟨spelled n, List.mem_map_of_mem hn, ?_⟩
  rw [fits_spelled (List.mem_cons_of_mem _ hn), hassign.text, ← hspells.length_eq, List.take_left]
  exact hspells

theorem front_bearer {p : Option Char} {cs : List Char} {h : Hit}
    (hh : bearer.hit? p cs = some h) : ∃ w ∈ [spelled "bearer"], fits w cs = true := by
  obtain ⟨-, word, gap, tok, pad, rest, hbear, rfl⟩ := bearer_hit.1 hh
  refine ⟨_, List.mem_singleton_self _, ?_⟩
  rw [fits_spelled List.mem_cons_self, hbear.text, ← hbear.spells.length_eq, List.take_left]
  exact hbear.spells

theorem front_accessKey {p : Option Char} {cs : List Char} {h : Hit}
    (hh : accessKey.hit? p cs = some h) : ∃ w ∈ [keyWord], fits w cs = true := by
  obtain ⟨-, key, rest, hkey, rfl⟩ := accessKey_hit.1 hh
  refine ⟨_, List.mem_singleton_self _, ?_⟩
  rw [← fits_take, hkey.text, ← hkey.length, List.take_left]
  exact hkey.isKey

theorem put_bearer {p : Option Char} {cs : List Char} {h : Hit}
    (hh : bearer.hit? p cs = some h) : h.put = "Bearer ***".toList := by
  obtain ⟨-, word, gap, tok, pad, rest, -, rfl⟩ := bearer_hit.1 hh
  rfl

theorem put_accessKey {p : Option Char} {cs : List Char} {h : Hit}
    (hh : accessKey.hit? p cs = some h) : h.put = "AKIA****************".toList := by
  obtain ⟨-, key, rest, -, rfl⟩ := accessKey_hit.1 hh
  rfl

theorem spares_assigned_bearer : Spares assigned bearer :=
  spares_of_front front_assigned put_bearer (by decide)

theorem spares_assigned_accessKey : Spares assigned accessKey :=
  spares_of_front front_assigned put_accessKey (by decide)

theorem spares_bearer_accessKey : Spares bearer accessKey :=
  spares_of_front front_bearer put_accessKey (by decide)

theorem spares_accessKey : Spares accessKey accessKey :=
  spares_of_front front_accessKey put_accessKey (by decide)

/-- No token begins with asterisks. -/
theorem spares_bearer : Spares bearer bearer := by
  intro p o taken put rest hh h hh'
  obtain rfl : put = "Bearer ***".toList := put_bearer hh
  obtain ⟨-, word, gap, tok, pad, rest', hbear, rfl⟩ := bearer_hit.1 hh'
  set swept := bearer.sweep taken.getLast? rest
  have htext : "Bearer".toList ++ (" ***".toList ++ swept) =
      word ++ (gap ++ (tok ++ (pad ++ rest'))) := hbear.text
  have hbehind := (List.append_inj htext hbear.spells.length_eq.symm).2
  have hspace : ∀ c ∈ gap, CharSet.space.contains c = true := hbear.isGap
  have hgap : [' '] = gap := by
    have hrun := congrArg (List.takeWhile CharSet.space.contains) hbehind
    rwa [takeWhile_run hspace (hbear.padded.stops_space _)] at hrun
  subst hgap
  obtain ⟨x, tok, rfl⟩ := List.exists_cons_of_ne_nil hbear.padded.ne_nil
  obtain rfl : '*' = x := (List.cons.inj (List.cons.inj hbehind).2).1
  exact absurd (hbear.padded.isToken '*' List.mem_cons_self) (by decide)

/-! ## The three sweeps -/

/-- What has been masked is settled for each rule. -/
theorem settled_masked (cs : List Char) :
    let masked := accessKey.sweep none (bearer.sweep none (assigned.sweep none cs))
    Settled assigned none masked ∧ Settled bearer none masked ∧ Settled accessKey none masked := by
  intro masked
  have hassigned₁ : Settled assigned none (assigned.sweep none cs) :=
    settled_sweep masks_assigned masks_assigned carries_assigned spares_assigned (.inl rfl)
  have hassigned₂ : Settled assigned none (bearer.sweep none (assigned.sweep none cs)) :=
    settled_sweep masks_assigned masks_bearer carries_assigned spares_assigned_bearer
      (.inr hassigned₁)
  have hbearer₂ : Settled bearer none (bearer.sweep none (assigned.sweep none cs)) :=
    settled_sweep masks_bearer masks_bearer carries_bearer spares_bearer (.inl rfl)
  refine ⟨?_, ?_, ?_⟩
  · exact settled_sweep masks_assigned masks_accessKey carries_assigned spares_assigned_accessKey
      (.inr hassigned₂)
  · exact settled_sweep masks_bearer masks_accessKey carries_bearer spares_bearer_accessKey
      (.inr hbearer₂)
  · exact settled_sweep masks_accessKey masks_accessKey carries_accessKey spares_accessKey
      (.inl rfl)

/-- A rule leaves a settled text as it is. -/
theorem text_rewrite {p : Pattern} {template : String} {r : Rule} (hr : Follows p template r)
    {text : String} (h : Settled r none text.toList) :
    ((Redactor.rule p template).rewrite text).text = text := by
  have hsweep := hr.getD_replaceAll? text
  rw [h.sweep_eq, String.ofList_toList] at hsweep
  rw [Redactor.rewrite, Redactor.replace]
  cases hreplaced : p.replaceAll? template text with
  | none => rfl
  | some replaced => rwa [hreplaced] at hsweep

/-- **What has been masked stays as it is**, under the chain for common secrets and under each of
its rules. -/
theorem commonSecrets_idempotent : ∃ chain, RedactorChain.commonSecrets = .ok chain ∧ ∀ text,
    chain.redact (chain.redact text) = chain.redact text ∧
      ∀ r ∈ chain.redactors, (r.rewrite (chain.redact text)).text = chain.redact text := by
  refine ⟨preset, commonSecrets_eq, fun text => ?_⟩
  obtain ⟨hassigned, hbearer, haccessKey⟩ := settled_masked text.toList
  have hmasked : (preset.redact text).toList =
      accessKey.sweep none (bearer.sweep none (assigned.sweep none text.toList)) := by
    rw [redact_preset, String.toList_ofList]
  rw [← hmasked] at hassigned hbearer haccessKey
  generalize preset.redact text = masked at hassigned hbearer haccessKey ⊢
  constructor
  · rw [redact_preset, hassigned.sweep_eq, hbearer.sweep_eq,
      haccessKey.sweep_eq, String.ofList_toList]
  · intro r hr
    rcases List.mem_cons.1 hr with rfl | hr
    · exact text_rewrite follows_assigned hassigned
    rcases List.mem_cons.1 hr with rfl | hr
    · exact text_rewrite follows_bearer hbearer
    rcases List.mem_singleton.1 hr with rfl
    exact text_rewrite follows_accessKey haccessKey

end Logging.Secret
