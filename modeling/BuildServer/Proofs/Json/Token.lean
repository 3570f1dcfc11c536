import BuildServer.Json.Printer
import BuildServer.Json.Token
import Mathlib.Data.Nat.Digits.Defs
/-!
# Scanning what was written

A string and an integer that were written are scanned as one token with the value that they were
written for. A string ends at its own quotation mark whatever follows it. A number has no mark at
its end, so what follows has to be the end of the text or a character that no number goes on with.

A string is read one written character at a time: whatever the writer makes of a character, be it an
escape of one letter or by number, brings the scanner back to where it was, with the character seen.
-/

set_option autoImplicit false

namespace BuildServer.Json

/-! ## Strings -/

/-- The scanner inside a string of which nothing is wrong. -/
def inText (seen : List Char) : Mode := .text { seen }

theorem hexValue?_digitChar {n : Nat} (h : n < 16) : Text.hexValue? (Nat.digitChar n) = some n := by
  have all : ∀ n : Fin 16, Text.hexValue? (Nat.digitChar n) = some n.val := by decide
  exact all ⟨n, h⟩

/-- A control character is read back from its number. -/
theorem scan_unit {c : Char} (h : c.toNat < 0x20) (seen rest : List Char) :
    scan (inText seen) ('\\' :: 'u' :: '0' :: '0' :: Nat.digitChar (c.toNat / 16) ::
      Nat.digitChar (c.toNat % 16) :: rest) = scan (inText (c :: seen)) rest := by
  have high := hexValue?_digitChar (n := c.toNat / 16) (by omega)
  have low := hexValue?_digitChar (n := c.toNat % 16) (by omega)
  have zero : Text.hexValue? '0' = some 0 := by decide
  have whole : 16 * (c.toNat / 16) + c.toNat % 16 = c.toNat := by omega
  -- the number is too small for half of a surrogate pair
  have notLow : ¬ (0xDC00 ≤ c.toNat ∧ c.toNat < 0xE000) := by omega
  have notHigh : ¬ (0xD800 ≤ c.toNat ∧ c.toNat < 0xDC00) := by omega
  simp [scan, scanChar, inText, Step.goOn, OpenText.pushUnit, OpenText.push, OpenText.settle, zero,
    high, low, whole, notLow, notHigh]

/-- Whatever the writer makes of a character is read as that character. -/
theorem scan_writeChar (c : Char) (seen rest : List Char) :
    scan (inText seen) (writeChar c ++ rest) = scan (inText (c :: seen)) rest := by
  unfold writeChar
  split
  -- the characters that have a letter of their own
  case h_1 | h_2 | h_3 | h_4 | h_5 | h_6 | h_7 => rfl
  case h_8 notQuote notBackslash _ _ _ _ _ =>
    by_cases control : c.toNat < 0x20
    · rw [if_pos control]
      exact scan_unit control seen rest
    · rw [if_neg control]
      have quote : c ≠ '"' := notQuote
      have backslash : c ≠ '\\' := notBackslash
      simp [scan, scanChar, inText, Step.goOn, OpenText.push, OpenText.settle, quote, backslash,
        control]

theorem scan_writeChars (cs seen rest : List Char) :
    scan (inText seen) (cs.flatMap writeChar ++ rest) = scan (inText (cs.reverse ++ seen)) rest := by
  induction cs generalizing seen with
  | nil => rfl
  | cons c cs ih =>
    rw [List.flatMap_cons, List.append_assoc, scan_writeChar, ih, List.reverse_cons,
      List.append_assoc, List.singleton_append]

/-- A string that was written is scanned as one token. -/
theorem scan_writeString (s : String) (rest : List Char) :
    scan .between (writeString s ++ rest) = .scalar (.string s) :: scan .between rest := by
  have opened : scan .between (writeString s ++ rest)
      = scan (inText []) (s.toList.flatMap writeChar ++ '"' :: rest) := by
    simp [writeString, scan, scanChar, scanBetween, Step.goOn, inText]
  rw [opened, scan_writeChars]
  simp [scan, scanChar, inText, Step.give, OpenText.close, OpenText.settle]

/-! ## Integers -/

/-- A value may end before the text: no number goes on with it. -/
def EndsValue (rest : List Char) : Prop :=
  ∀ c, rest.head? = some c → c = ',' ∨ c = ']' ∨ c = '}'

theorem endsValue_nil : EndsValue [] := by
  intro c hc
  cases hc

theorem endsValue_cons {c : Char} (h : c = ',' ∨ c = ']' ∨ c = '}') (rest : List Char) :
    EndsValue (c :: rest) := by
  intro d hd
  rw [List.head?_cons, Option.some.injEq] at hd
  exact hd ▸ h

/-- The part of a number that its first digit begins. A zero in front stands alone. -/
def leadingPart (c : Char) : NumberPart := if c = '0' then .zero else .whole

theorem next?_sign {c : Char} (h : c.isDigit = true) :
    NumberPart.sign.next? c = some (leadingPart c) := by
  by_cases zero : c = '0'
  · simp [NumberPart.next?, leadingPart, zero]
  · simp [NumberPart.next?, leadingPart, zero, h]

theorem scanBetween_digit {c : Char} (h : c.isDigit = true) :
    scanBetween c = .goOn (.number (leadingPart c) [c]) := by
  have notMinus : c ≠ '-' := by
    rintro rfl
    revert h
    decide
  have first : NumberPart.first? c = some (leadingPart c) := by
    rw [NumberPart.first?, if_neg notMinus, next?_sign h]
  unfold scanBetween
  -- the characters with a meaning of their own are no digits
  split
  all_goals first
    | exact absurd h (by decide)
    | rw [first]

/-- A number ends where no number goes on. -/
theorem scan_ends {part : NumberPart} (hpart : part = .zero ∨ part = .whole) (seen : List Char)
    {rest : List Char} (ends : EndsValue rest) :
    scan (.number part seen) rest = .scalar (ofNumber seen.reverse) :: scan .between rest := by
  rcases rest with _ | ⟨c, rest⟩
  · rcases hpart with rfl | rfl <;> rfl
  · rcases ends c rfl with rfl | rfl | rfl <;> rcases hpart with rfl | rfl <;> rfl

theorem scan_digits {ds : List Char} (digits : ∀ c ∈ ds, c.isDigit = true)
    (seen rest : List Char) : scan (.number .whole seen) (ds ++ rest)
      = scan (.number .whole (ds.reverse ++ seen)) rest := by
  induction ds generalizing seen with
  | nil => rfl
  | cons d ds ih =>
    rw [List.forall_mem_cons] at digits
    have next : NumberPart.whole.next? d = some .whole := if_pos digits.1
    have onward := ih digits.2 (d :: seen)
    simpa [scan, scanChar, Step.goOn, next] using onward

/-- The digits of a number begin with a zero only if the number is zero. -/
theorem head_toDigits_ne {n : Nat} (h : 0 < n) : (Nat.toDigits 10 n).head? ≠ some '0' := by
  induction n using Nat.strongRecOn with
  | ind n ih =>
    by_cases small : n < 10
    · rw [Nat.toDigits_of_lt_base small, List.head?_cons, ne_eq, Option.some.injEq,
        Nat.digitChar_eq_zero]
      omega
    · have front := ih (n / 10) (by omega) (by omega)
      rw [Nat.toDigits_of_base_le (by omega) (by omega), List.head?_append]
      rcases hfirst : (Nat.toDigits 10 (n / 10)).head? with _ | d
      · exact absurd (List.head?_eq_none_iff.mp hfirst) Nat.toDigits_ne_nil
      · rw [hfirst] at front
        exact front

/-- The digits of a number are scanned to its end, once the first one has been. -/
theorem scan_toDigits (n : Nat) {d : Char} {ds : List Char} (written : Nat.toDigits 10 n = d :: ds)
    (seen : List Char) {rest : List Char} (ends : EndsValue rest) :
    scan (.number (leadingPart d) (d :: seen)) (ds ++ rest)
      = .scalar (ofNumber (seen.reverse ++ Nat.toDigits 10 n)) :: scan .between rest := by
  have digits : ∀ c ∈ d :: ds, c.isDigit = true := by
    intro c hc
    rw [← written] at hc
    exact Nat.isDigit_of_mem_toDigits (by omega) (by omega) hc
  rcases Nat.eq_zero_or_pos n with rfl | positive
  · rw [Nat.toDigits_zero, List.cons.injEq] at written
    obtain ⟨rfl, rfl⟩ := written
    have alone := scan_ends (Or.inl rfl) ('0' :: seen) ends
    simpa [leadingPart, Nat.toDigits_zero] using alone
  · have head := head_toDigits_ne positive
    rw [written, List.head?_cons, ne_eq, Option.some.injEq] at head
    have whole : leadingPart d = .whole := if_neg head
    rw [whole, scan_digits fun c hc => digits c (List.mem_cons_of_mem _ hc),
      scan_ends (Or.inr rfl) _ ends, written]
    simp

theorem ofDecimal_toDigits (n : Nat) : Text.ofDecimal (Nat.toDigits 10 n) = n := by
  have back := Nat.ofDigitChars_toDigits (b := 10) (n := n) (by omega) (by omega)
  rw [Nat.ofDigitChars_eq_foldl] at back
  exact back

theorem all_isDigit_toDigits (n : Nat) : (Nat.toDigits 10 n).all Char.isDigit = true := by
  rw [List.all_eq_true]
  intro c hc
  exact Nat.isDigit_of_mem_toDigits (by omega) (by omega) hc

theorem length_toDigits_le {n : Nat} (h : n < 2 ^ 64) :
    (Nat.toDigits 10 n).length ≤ integerDigits := by
  unfold integerDigits
  rw [Nat.length_toDigits_le_iff (by omega) (by omega)]
  omega

/-- The digits of a number of 64 bits are the literal of the number. -/
theorem ofNumber_toDigits {n : Nat} (h : n < 2 ^ 64) :
    ofNumber (Nat.toDigits 10 n) = .integer n := by
  have positive : ((Nat.toDigits 10 n).head? == some '-') = false := by
    rw [beq_eq_false_iff_ne]
    intro minus
    have digit := List.all_eq_true.mp (all_isDigit_toDigits n) '-' (List.mem_of_mem_head? minus)
    revert digit
    decide
  simp [ofNumber, positive, length_toDigits_le h, all_isDigit_toDigits, ofDecimal_toDigits]
  intro large
  omega

/-- Behind a minus sign they are the literal of the negative number. -/
theorem ofNumber_minus {n : Nat} (positive : 0 < n) (h : n ≤ 2 ^ 63) :
    ofNumber ('-' :: Nat.toDigits 10 n) = .integer (-n) := by
  have length : (Nat.toDigits 10 n).length ≤ integerDigits := length_toDigits_le (by omega)
  simp [ofNumber, length, all_isDigit_toDigits, ofDecimal_toDigits, positive]
  intro large
  omega

/-- An integer that was written is scanned as one token. -/
theorem scan_writeInteger {n : Int} (low : -2 ^ 63 ≤ n) (high : n < 2 ^ 64) {rest : List Char}
    (ends : EndsValue rest) :
    scan .between (writeInteger n ++ rest) = .scalar (.integer n) :: scan .between rest := by
  obtain ⟨d, ds, written⟩ := List.exists_cons_of_ne_nil (Nat.toDigits_ne_nil (n := n.natAbs) (b := 10))
  have digit : d.isDigit = true :=
    List.all_eq_true.mp (all_isDigit_toDigits n.natAbs) d (written ▸ List.mem_cons_self)
  unfold writeInteger
  by_cases negative : n < 0
  · have opened : scan .between ('-' :: Nat.toDigits 10 n.natAbs ++ rest)
        = scan (.number (leadingPart d) (d :: ['-'])) (ds ++ rest) := by
      have minus : scanBetween '-' = .goOn (.number .sign ['-']) := rfl
      simp [written, scan, scanChar, minus, Step.goOn, next?_sign digit]
    have value : -(n.natAbs : Int) = n := by omega
    rw [if_pos negative, opened, scan_toDigits n.natAbs written ['-'] ends, List.reverse_singleton,
      List.singleton_append, ofNumber_minus (by omega) (by omega), value]
  · have opened : scan .between (Nat.toDigits 10 n.natAbs ++ rest)
        = scan (.number (leadingPart d) [d]) (ds ++ rest) := by
      simp [written, scan, scanChar, scanBetween_digit digit, Step.goOn]
    have value : (n.natAbs : Int) = n := by omega
    rw [if_neg negative, opened, scan_toDigits n.natAbs written [] ends, List.reverse_nil,
      List.nil_append, ofNumber_toDigits (by omega), value]

end BuildServer.Json
