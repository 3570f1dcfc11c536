import BuildServer.Text.Blank
import Mathlib.Data.List.Basic
import Mathlib.Data.List.TakeWhile
/-!
# Blanks around texts and words

Two things are read off a text without its blanks: the text between them, and its words. Of both it is
said here what they are, and not only how they are computed. A text is trimmed if no blank stands at
either end, and trimming drops blanks until that holds. The words of a text are runs of characters that
are not blank, kept apart by blanks, with any blanks before and after (`Spaced`), and every text is laid
out in one way only. How many blanks there are and which of them makes no difference to either.
-/

set_option autoImplicit false

namespace BuildServer.Text

variable {cs gap before after word : List Char} {ws : List (List Char)} {c : Char}

/-- The text has no characters but blanks. -/
def AllBlank (cs : List Char) : Prop := ∀ c ∈ cs, isBlank c = true

theorem isAllBlank_iff {s : String} : isAllBlank s = true ↔ AllBlank s.toList :=
  List.all_eq_true

theorem allBlank_append : AllBlank (before ++ after) ↔ AllBlank before ∧ AllBlank after :=
  List.forall_mem_append

theorem AllBlank.reverse (h : AllBlank cs) : AllBlank cs.reverse :=
  fun c hc => h c (List.mem_reverse.mp hc)

theorem isBlank_of_isAlpha (h : c.isAlpha = true) : isBlank c = false := by
  have bounds : (65 ≤ c.toNat ∧ c.toNat ≤ 90) ∨ (97 ≤ c.toNat ∧ c.toNat ≤ 122) := by
    have letter : (c.isUpper || c.isLower) = true := h
    rcases Bool.or_eq_true_iff.mp letter with upper | lower
    · exact .inl (of_decide_eq_true upper)
    · obtain ⟨low, high⟩ := (Bool.and_eq_true _ _).mp lower
      exact .inr ⟨of_decide_eq_true low, of_decide_eq_true high⟩
  unfold isBlank
  simp only [Bool.or_eq_false_iff, Bool.and_eq_false_iff, beq_eq_false_iff_ne, decide_eq_false_iff_not]
  omega

/-! ## Trimming -/

/-- No blank stands at either end. -/
def Trimmed (cs : List Char) : Prop :=
  (∀ c ∈ cs.head?, isBlank c = false) ∧ ∀ c ∈ cs.getLast?, isBlank c = false

/-- Behind a character that is not blank, what follows decides how the text ends. -/
theorem solid_end_append {front : List Char} {last : Char} (ends : front.getLast? = some last)
    (solid : isBlank last = false) (tail : List Char) :
    (∀ c ∈ (front ++ tail).getLast?, isBlank c = false) ↔
      ∀ c ∈ tail.getLast?, isBlank c = false := by
  rw [List.getLast?_append, ends]
  cases tail.getLast? <;> simp [solid]

theorem dropWhile_isBlank_eq_self (h : ∀ c ∈ cs.head?, isBlank c = false) :
    cs.dropWhile isBlank = cs := by
  cases cs with
  | nil => rfl
  | cons c cs =>
    have first : isBlank c = false := h c rfl
    rw [List.dropWhile_cons, if_neg (by simp [first])]

theorem head?_dropWhile_isBlank (cs : List Char) :
    ∀ c ∈ (cs.dropWhile isBlank).head?, isBlank c = false := by
  intro c hc
  have stopped := List.head?_dropWhile_not isBlank cs
  rw [hc] at stopped
  exact stopped

theorem trimChars_trimmed (cs : List Char) : Trimmed (trimChars cs) := by
  have kept : trimChars cs <+: cs.dropWhile isBlank := by
    have suffix := List.dropWhile_suffix isBlank (l := (cs.dropWhile isBlank).reverse)
    rw [← List.reverse_prefix, List.reverse_reverse] at suffix
    exact suffix
  constructor
  · -- what is dropped at the end leaves the first character as it is
    intro c hc
    obtain ⟨more, whole⟩ := kept
    refine head?_dropWhile_isBlank cs c ?_
    rw [← whole, List.head?_append, hc]
    rfl
  · intro c hc
    rw [trimChars, List.getLast?_reverse] at hc
    exact head?_dropWhile_isBlank _ c hc

theorem trimChars_eq_self (h : Trimmed cs) : trimChars cs = cs := by
  have last : ∀ c ∈ cs.reverse.head?, isBlank c = false := by
    rw [List.head?_reverse]
    exact h.2
  rw [trimChars, dropWhile_isBlank_eq_self h.1, dropWhile_isBlank_eq_self last, List.reverse_reverse]

/-- Nothing is dropped exactly if no blank stands at either end. -/
theorem trimChars_eq_self_iff : trimChars cs = cs ↔ Trimmed cs := by
  constructor
  · intro same
    rw [← same]
    exact trimChars_trimmed cs
  · exact trimChars_eq_self

instance (cs : List Char) : Decidable (Trimmed cs) := decidable_of_iff _ trimChars_eq_self_iff

theorem trimChars_eq_nil_iff : trimChars cs = [] ↔ AllBlank cs := by
  constructor
  · intro nothing
    rw [trimChars, List.reverse_eq_nil_iff, List.dropWhile_eq_nil_iff] at nothing
    have dropped : cs.dropWhile isBlank = [] := by
      by_contra some
      have first := List.head_dropWhile_not isBlank some
      rw [nothing _ (List.mem_reverse.mpr (List.head_mem some))] at first
      cases first
    exact List.dropWhile_eq_nil_iff.mp dropped
  · intro blank
    rw [trimChars, List.dropWhile_eq_nil_iff.mpr blank]
    rfl

theorem isEmpty_trim (s : String) : (trim s).isEmpty = isAllBlank s := by
  rw [Bool.eq_iff_iff, String.isEmpty_iff, isAllBlank_iff, ← trimChars_eq_nil_iff, trim]
  exact String.ofList_eq_empty_iff

theorem dropWhile_isBlank_append (blank : AllBlank gap) (cs : List Char) :
    (gap ++ cs).dropWhile isBlank = cs.dropWhile isBlank :=
  List.dropWhile_append_of_pos blank

/-- Blanks around a text make no difference to what is left of it. -/
theorem trimChars_padded (blankBefore : AllBlank before) (blankAfter : AllBlank after)
    (cs : List Char) : trimChars (before ++ cs ++ after) = trimChars cs := by
  rw [trimChars, trimChars, List.append_assoc, dropWhile_isBlank_append blankBefore,
    List.dropWhile_append]
  split
  case isTrue nothing =>
    rw [List.isEmpty_iff] at nothing
    rw [nothing, List.dropWhile_eq_nil_iff.mpr blankAfter]
  case isFalse => rw [List.reverse_append, dropWhile_isBlank_append blankAfter.reverse]

theorem trim_padded {before after : String} (blankBefore : AllBlank before.toList)
    (blankAfter : AllBlank after.toList) (s : String) : trim (before ++ s ++ after) = trim s := by
  rw [trim, trim, String.toList_append, String.toList_append, trimChars_padded blankBefore blankAfter]

/-- What is dropped in front is dropped from the front part, where the rest begins with something that
stays. -/
theorem dropWhile_append_of_stop {p : Char → Bool} (stop : ∀ c ∈ after.head?, p c = false)
    (before : List Char) : (before ++ after).dropWhile p = before.dropWhile p ++ after := by
  rw [List.dropWhile_append]
  split
  case isTrue nothing =>
    rw [List.isEmpty_iff] at nothing
    rw [nothing, List.nil_append]
    cases after with
    | nil => rfl
    | cons c after => exact List.dropWhile_cons_of_neg (by simp [stop c rfl])
  case isFalse => rfl

/-- Around a text that is trimmed, blanks are dropped in front of what stands before it, and behind what
stands after it. -/
theorem trimChars_around (trimmed : Trimmed cs) (some : cs ≠ []) (before after : List Char) :
    trimChars (before ++ cs ++ after) =
      before.dropWhile isBlank ++ cs ++ (after.reverse.dropWhile isBlank).reverse := by
  have front : ∀ c ∈ (cs ++ after).head?, isBlank c = false := by
    rw [List.head?_append_of_ne_nil _ some]
    exact trimmed.1
  have back : ∀ c ∈ (before.dropWhile isBlank ++ cs).reverse.head?, isBlank c = false := by
    rw [List.head?_reverse, List.getLast?_append_of_ne_nil _ some]
    exact trimmed.2
  rw [trimChars, List.append_assoc, dropWhile_append_of_stop front, ← List.append_assoc,
    List.reverse_append, dropWhile_append_of_stop back, List.reverse_append, List.reverse_reverse]

/-! ## Words -/

/-- A run of characters that are not blank. -/
structure IsWord (word : List Char) : Prop where
  nonempty : word ≠ []
  solid : ∀ c ∈ word, isBlank c = false

/-- The text goes on with a blank, if it goes on at all. -/
def BeginsBlank (cs : List Char) : Prop := ∀ c ∈ cs.head?, isBlank c = true

/-- The text is made up of the words, in this order, and of blanks, with at least one blank between two
words. -/
inductive Spaced : List (List Char) → List Char → Prop
  | nil : Spaced [] []
  | blank {ws : List (List Char)} {cs : List Char} {c : Char} (h : isBlank c = true)
      (more : Spaced ws cs) : Spaced ws (c :: cs)
  | word {ws : List (List Char)} {cs word : List Char} (h : IsWord word) (apart : BeginsBlank cs)
      (more : Spaced ws cs) : Spaced (word :: ws) (word ++ cs)

theorem words_cons_blank (h : isBlank c = true) (cs : List Char) : words (c :: cs) = words cs := by
  rw [words, List.foldr_cons, wordsStep, if_pos h]
  rfl

/-- Before a blank, and at the end, no word is under way. -/
theorem foldr_wordsStep_apart (apart : BeginsBlank cs) :
    cs.foldr wordsStep ([], []) = ([], words cs) := by
  cases cs with
  | nil => rfl
  | cons c cs =>
    have blank : isBlank c = true := apart c rfl
    rw [words_cons_blank blank, List.foldr_cons, wordsStep, if_pos blank]
    rfl

theorem foldr_wordsStep_word (solid : ∀ c ∈ word, isBlank c = false) (later : List (List Char)) :
    word.foldr wordsStep ([], later) = (word, later) := by
  induction word with
  | nil => rfl
  | cons c word ih =>
    rw [List.forall_mem_cons] at solid
    rw [List.foldr_cons, ih solid.2, wordsStep, if_neg (by simp [solid.1])]

theorem words_append (h : IsWord word) (apart : BeginsBlank cs) :
    words (word ++ cs) = word :: words cs := by
  rw [words, List.foldr_append, foldr_wordsStep_apart apart, foldr_wordsStep_word h.solid]
  dsimp only
  rw [if_neg (by simp [h.nonempty])]

theorem Spaced.words_eq (h : Spaced ws cs) : words cs = ws := by
  induction h with
  | nil => rfl
  | blank h _ ih => rw [words_cons_blank h, ih]
  | word h apart _ ih => rw [words_append h apart, ih]

/-- A text that does not begin with a blank begins with a word, and is cut behind it. -/
theorem exists_word_append (solid : isBlank c = false) (cs : List Char) :
    ∃ word rest, IsWord word ∧ BeginsBlank rest ∧ c :: cs = word ++ rest := by
  refine ⟨(c :: cs).takeWhile (!isBlank ·), (c :: cs).dropWhile (!isBlank ·), ⟨?_, ?_⟩, ?_,
    List.takeWhile_append_dropWhile.symm⟩
  · simp [solid]
  · intro d hd
    simpa using List.mem_takeWhile_imp hd
  · intro d hd
    have stopped := List.head?_dropWhile_not (!isBlank ·) (c :: cs)
    rw [hd] at stopped
    simpa using stopped

theorem spaced_words (cs : List Char) : Spaced (words cs) cs := by
  -- on the length, since what follows a word may be any part of the text
  induction hlength : cs.length using Nat.strong_induction_on generalizing cs with
  | _ n ih =>
    cases cs with
    | nil => exact .nil
    | cons c cs =>
      by_cases blank : isBlank c = true
      · rw [words_cons_blank blank]
        exact .blank blank (ih cs.length (by simp [← hlength]) cs rfl)
      · obtain ⟨word, rest, isWord, apart, cut⟩ :=
          exists_word_append (Bool.eq_false_iff.mpr blank) cs
        have started : 0 < word.length := List.length_pos_iff.mpr isWord.nonempty
        have shorter : rest.length < n := by
          rw [← hlength, cut, List.length_append]
          omega
        rw [cut, words_append isWord apart]
        exact .word isWord apart (ih rest.length shorter rest rfl)

/-- The words of a text are the only ones that it is made up of. -/
theorem words_eq_iff : words cs = ws ↔ Spaced ws cs := by
  constructor
  · rintro rfl
    exact spaced_words cs
  · exact Spaced.words_eq

/-- The two texts are made up of the same words, each with blanks of its own. -/
def Respaced (s t : String) : Prop := ∃ ws, Spaced ws s.toList ∧ Spaced ws t.toList

theorem respaced_iff {s t : String} : Respaced s t ↔ words s.toList = words t.toList := by
  constructor
  · rintro ⟨ws, hs, ht⟩
    rw [hs.words_eq, ht.words_eq]
  · intro same
    exact ⟨words t.toList, words_eq_iff.mp same, spaced_words _⟩

instance (s t : String) : Decidable (Respaced s t) := decidable_of_iff _ respaced_iff.symm

example : Respaced "//depot/... //ws/..." "\t//depot/...\n\u3000//ws/... " := by decide +kernel

theorem Respaced.singleSpaced_eq {s t : String} (h : Respaced s t) :
    singleSpaced s = singleSpaced t := by
  rw [singleSpaced, singleSpaced, respaced_iff.mp h]

end BuildServer.Text
