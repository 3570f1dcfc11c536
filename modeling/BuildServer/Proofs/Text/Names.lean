import BuildServer.Text.Lowercase
/-!
# The two ways of comparing names

Names that are the same up to the case of ASCII letters have the same small letters. The converse
fails, since other letters have case as well. The reason is that taking an ASCII letter for its small
one changes nothing that the small letters of a text depend on: the mapping of the letter itself, and
whether it is cased or looked past, which decides how a capital sigma nearby is written.

No character has a capital of ASCII among its small letters, so none is left in a text that was taken
to small letters.
-/

set_option autoImplicit false

namespace BuildServer.Text

/-- Everything that the small letters of a text depend on in a character. -/
structure SameCase (a b : Char) : Prop where
  cased : isCased a = isCased b
  ignorable : isCaseIgnorable a = isCaseIgnorable b
  small : smallLetter a = smallLetter b
  sigma : a = 'Σ' ↔ b = 'Σ'
  dotted : a = 'İ' ↔ b = 'İ'

theorem SameCase.refl (c : Char) : SameCase c c := ⟨rfl, rfl, rfl, Iff.rfl, Iff.rfl⟩

/-- The twenty-six capital letters, by their place in the alphabet. -/
theorem sameCase_capital (place : Fin 26) :
    SameCase (Char.ofNat (65 + place)).toLower (Char.ofNat (65 + place)) := by
  have cased : ∀ i : Fin 26, isCased (Char.ofNat (65 + i)).toLower = isCased (Char.ofNat (65 + i)) := by
    decide +kernel
  have ignorable : ∀ i : Fin 26,
      isCaseIgnorable (Char.ofNat (65 + i)).toLower = isCaseIgnorable (Char.ofNat (65 + i)) := by
    decide +kernel
  have small : ∀ i : Fin 26,
      smallLetter (Char.ofNat (65 + i)).toLower = smallLetter (Char.ofNat (65 + i)) := by
    decide +kernel
  have sigma : ∀ i : Fin 26, (Char.ofNat (65 + i)).toLower = 'Σ' ↔ Char.ofNat (65 + i) = 'Σ' := by
    decide +kernel
  have dotted : ∀ i : Fin 26, (Char.ofNat (65 + i)).toLower = 'İ' ↔ Char.ofNat (65 + i) = 'İ' := by
    decide +kernel
  exact ⟨cased place, ignorable place, small place, sigma place, dotted place⟩

theorem sameCase_toLower (c : Char) : SameCase c.toLower c := by
  by_cases capital : c.val ≥ 'A'.val ∧ c.val ≤ 'Z'.val
  · have hbounds : 65 ≤ c.toNat ∧ c.toNat ≤ 90 := capital
    have hc : c = Char.ofNat (65 + (⟨c.toNat - 65, by omega⟩ : Fin 26)) := by
      have hsum : 65 + (c.toNat - 65) = c.toNat := by omega
      rw [hsum, Char.ofNat_toNat]
    rw [hc]
    exact sameCase_capital _
  · have hc : c.toLower = c := dif_neg capital
    rw [hc]
    exact .refl c

theorem meetsCased_map_toLower (cs : List Char) :
    meetsCased (cs.map Char.toLower) = meetsCased cs := by
  induction cs with
  | nil => rfl
  | cons c cs ih =>
    have same := sameCase_toLower c
    rw [meetsCased, meetsCased] at ih ⊢
    rw [List.map_cons, List.dropWhile_cons, List.dropWhile_cons, same.ignorable]
    by_cases ignorable : isCaseIgnorable c = true
    · rw [if_pos ignorable, if_pos ignorable]
      exact ih
    · rw [if_neg ignorable, if_neg ignorable]
      exact same.cased

theorem smallLettersAt_toLower (before : List Char) (c : Char) (after : List Char) :
    smallLettersAt (before.map Char.toLower) c.toLower (after.map Char.toLower)
      = smallLettersAt before c after := by
  have same := sameCase_toLower c
  rw [smallLettersAt, smallLettersAt, meetsCased_map_toLower, meetsCased_map_toLower, same.small]
  simp only [same.sigma, same.dotted]

theorem smallLettersAfter_map_toLower (before cs : List Char) :
    smallLettersAfter (before.map Char.toLower) (cs.map Char.toLower)
      = smallLettersAfter before cs := by
  induction cs generalizing before with
  | nil => rfl
  | cons c cs ih =>
    have hrest := ih (c :: before)
    rw [List.map_cons] at hrest
    rw [List.map_cons, smallLettersAfter, smallLettersAfter, smallLettersAt_toLower, hrest]

/-- Names that are the same up to the case of ASCII letters have the same small letters. -/
theorem lowercase_eq_of_sameName {a b : String} (h : sameName a b = true) :
    lowercase a = lowercase b := by
  rw [sameName, beq_iff_eq] at h
  have ha := smallLettersAfter_map_toLower [] a.toList
  have hb := smallLettersAfter_map_toLower [] b.toList
  rw [lowercase, lowercase, ← ha, ← hb, h]

@[simp] theorem sameName_self (name : String) : sameName name name = true :=
  beq_self_eq_true _

/-- Names that are the same are the same as the same names. -/
theorem sameName_congr {b c : String} (h : sameName b c = true) (a : String) :
    sameName a b = sameName a c := by
  rw [sameName, beq_iff_eq] at h
  rw [sameName, sameName, h]

/-! ## Small letters -/

/-- What is not a code point becomes the character zero. -/
theorem toNat_ofNat (n : Nat) : (Char.ofNat n).toNat = if n.isValidChar then n else 0 := by
  by_cases valid : n.isValidChar
  · rw [Char.ofNat, dif_pos valid, if_pos valid]
    rfl
  · rw [Char.ofNat, dif_neg valid, if_neg valid]
    rfl

/-- No letter is mapped to a capital of ASCII, and these are themselves mapped elsewhere. -/
theorem isUpper_smallLetter (c : Char) : (smallLetter c).isUpper = false := by
  have beyond : ∀ run ∈ lowercaseRuns, 90 < (run.first : Int) + run.shift := by decide +kernel
  have notUpper : ∀ c : Char, 90 < c.toNat ∨ c.toNat < 65 → c.isUpper = false := by
    intro c hc
    refine decide_eq_false ?_
    intro upper
    have hbounds : 65 ≤ c.toNat ∧ c.toNat ≤ 90 := upper
    omega
  rcases found : lowercaseRuns.find? (·.holds c.toNat) with _ | run
  · rw [smallLetter, found]
    refine notUpper c ?_
    -- the first run holds the capitals of ASCII
    have outside := List.find?_eq_none.mp found ⟨0x41, 0x5A, 1, 32⟩ List.mem_cons_self
    simp only [LowercaseRun.holds, Nat.mod_one, Bool.and_eq_true, decide_eq_true_eq, beq_self_eq_true,
      and_true] at outside
    omega
  · rw [smallLetter, found]
    refine notUpper _ ?_
    have hrun := beyond run (List.mem_of_find?_eq_some found)
    have holds := List.find?_some found
    simp only [LowercaseRun.holds, Bool.and_eq_true, decide_eq_true_eq] at holds
    rw [toNat_ofNat]
    by_cases valid : (((c.toNat : Int) + run.shift).toNat).isValidChar
    · rw [if_pos valid]
      omega
    · rw [if_neg valid]
      omega

theorem isUpper_smallLettersAt (before : List Char) (c : Char) (after : List Char) :
    ∀ small ∈ smallLettersAt before c after, small.isUpper = false := by
  have final : 'ς'.isUpper = false := by decide
  have inner : 'σ'.isUpper = false := by decide
  have undotted : 'i'.isUpper = false ∧ '\u0307'.isUpper = false := by decide
  rw [smallLettersAt]
  by_cases sigma : c = 'Σ'
  · rw [if_pos sigma]
    by_cases ends : (meetsCased before && !meetsCased after) = true
    · rw [if_pos ends, List.forall_mem_singleton]
      exact final
    · rw [if_neg ends, List.forall_mem_singleton]
      exact inner
  rw [if_neg sigma]
  by_cases dotted : c = 'İ'
  · rw [if_pos dotted, List.forall_mem_cons, List.forall_mem_singleton]
    exact undotted
  · rw [if_neg dotted, List.forall_mem_singleton]
    exact isUpper_smallLetter c

theorem isUpper_smallLettersAfter (before cs : List Char) :
    ∀ small ∈ smallLettersAfter before cs, small.isUpper = false := by
  induction cs generalizing before with
  | nil =>
    intro small hsmall
    cases hsmall
  | cons c cs ih =>
    intro small hsmall
    rw [smallLettersAfter, List.mem_append] at hsmall
    rcases hsmall with hsmall | hsmall
    · exact isUpper_smallLettersAt before c cs small hsmall
    · exact ih (c :: before) small hsmall

/-- A text in small letters is without capitals of ASCII. -/
theorem isUpper_lowercase (s : String) : ∀ c ∈ (lowercase s).toList, c.isUpper = false := by
  rw [lowercase, String.toList_ofList]
  exact isUpper_smallLettersAfter [] s.toList

/-! ## Names in ASCII -/

/-- The text has no characters but those of ASCII. -/
def IsAscii (s : String) : Prop := ∀ c ∈ s.toList, c.toNat < 128

/-- In ASCII nothing but the twenty-six letters has case. -/
theorem smallLettersAt_of_lt {c : Char} (h : c.toNat < 128) (before after : List Char) :
    smallLettersAt before c after = [c.toLower] := by
  have letters : ∀ i : Fin 128, Char.ofNat i ≠ 'Σ' ∧ Char.ofNat i ≠ 'İ' ∧
      smallLetter (Char.ofNat i) = (Char.ofNat i).toLower := by
    decide +kernel
  obtain ⟨notSigma, notDotted, small⟩ := letters ⟨c.toNat, h⟩
  rw [Char.ofNat_toNat] at notSigma notDotted small
  rw [smallLettersAt, if_neg notSigma, if_neg notDotted, small]

theorem smallLettersAfter_of_lt {cs : List Char} (h : ∀ c ∈ cs, c.toNat < 128)
    (before : List Char) : smallLettersAfter before cs = cs.map Char.toLower := by
  induction cs generalizing before with
  | nil => rfl
  | cons c cs ih =>
    rw [List.forall_mem_cons] at h
    rw [smallLettersAfter, smallLettersAt_of_lt h.1, ih h.2, List.map_cons, List.singleton_append]

/-- Between names in ASCII the two ways of comparing agree. -/
theorem sameName_of_lowercase_eq {a b : String} (ha : IsAscii a) (hb : IsAscii b)
    (h : lowercase a = lowercase b) : sameName a b = true := by
  rw [lowercase, lowercase, smallLettersAfter_of_lt ha, smallLettersAfter_of_lt hb] at h
  rw [sameName, beq_iff_eq]
  exact String.ofList_injective h

theorem toLower_lt_iff (c : Char) : c.toLower.toNat < 128 ↔ c.toNat < 128 := by
  by_cases capital : c.val ≥ 'A'.val ∧ c.val ≤ 'Z'.val
  · have hbounds : 65 ≤ c.toNat ∧ c.toNat ≤ 90 := capital
    have small : ∀ i : Fin 128, (Char.ofNat i).toLower.toNat < 128 := by decide +kernel
    have hc := small ⟨c.toNat, by omega⟩
    rw [Char.ofNat_toNat] at hc
    exact iff_of_true hc (by omega)
  · have hc : c.toLower = c := dif_neg capital
    rw [hc]

/-- A name that is the same as one in ASCII, up to the case of its letters, is itself in ASCII. -/
theorem isAscii_of_sameName {a b : String} (h : sameName a b = true) (ha : IsAscii a) :
    IsAscii b := by
  rw [sameName, beq_iff_eq] at h
  intro c hc
  have hlower : c.toLower ∈ a.toList.map Char.toLower := by
    rw [h]
    exact List.mem_map_of_mem hc
  obtain ⟨other, hother, same⟩ := List.mem_map.mp hlower
  rw [← toLower_lt_iff, ← same, toLower_lt_iff]
  exact ha other hother

end BuildServer.Text
