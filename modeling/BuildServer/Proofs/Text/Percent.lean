import BuildServer.Text.Percent
/-!
# Escapes resolved

Where a text is escaped and the escapes are resolved again, the text comes back only if it was without
escapes of its own: those are left as they are by the one step, and resolved by the other. A percent
sign alone does no harm. It is taken for the beginning of an escape only if two hexadecimal digits
follow it, and no digit is ever the beginning of what a character is escaped to.

The octets of a text are looked at one by one. A character that is not escaped has to be in ASCII, so
it is one octet, and no octet is taken for a part of another character.
-/

set_option autoImplicit false

namespace BuildServer.Text

/-! ## Texts without escapes -/

/-- The text begins with an escape. -/
def startsEscape : List Char → Bool
  | '%' :: high :: low :: _ => (hexValue? high).isSome && (hexValue? low).isSome
  | _ => false

/-- There is an escape in the text. -/
def hasEscape : List Char → Bool
  | [] => false
  | c :: cs => startsEscape (c :: cs) || hasEscape cs

/-! ## Octets -/

theorem octets_cons (c : Char) (cs : List Char) : octets (c :: cs) = octets [c] ++ octets cs := by
  simp [octets]

theorem octets_append (cs more : List Char) : octets (cs ++ more) = octets cs ++ octets more :=
  List.flatMap_append

/-- A character of ASCII is one octet. -/
theorem octets_ascii {c : Char} (h : c.toNat < 0x80) : octets [c] = [UInt8.ofNat c.toNat] := by
  have small : c.val.toNat ≤ 127 := Nat.le_of_lt_succ h
  rw [octets, List.flatMap_singleton, String.utf8EncodeChar, if_pos small]
  rfl

theorem ofUInt8_ascii {c : Char} (h : c.toNat < 0x80) : Char.ofUInt8 (UInt8.ofNat c.toNat) = c := by
  have all : ∀ i : Fin 128, Char.ofUInt8 (UInt8.ofNat i) = Char.ofNat i := by decide
  have same := all ⟨c.toNat, h⟩
  rwa [Char.ofNat_toNat] at same

/-- The octets of a text form the text. -/
theorem ofOctets?_octets (cs : List Char) : ofOctets? (octets cs) = some (String.ofList cs) := by
  have same : (⟨⟨octets cs⟩⟩ : ByteArray) = (String.ofList cs).toByteArray := by
    apply ByteArray.ext
    exact List.data_toByteArray.symm
  have valid : (⟨⟨octets cs⟩⟩ : ByteArray).IsValidUTF8 := by
    rw [same]
    exact (String.ofList cs).isValidUTF8
  rw [ofOctets?, String.fromUTF8?, dif_pos valid, Option.some.injEq]
  exact String.toByteArray_inj.mp same

/-! ## Resolving -/

/-- The octet of an escape comes back. -/
theorem unescapeOctets_escapeOctet (b : UInt8) (rest : List UInt8) :
    unescapeOctets (octets (escapeOctet b) ++ rest) = b :: unescapeOctets rest := by
  have digits : ∀ i : Fin 256, ∃ high low, octets (escapeOctet (UInt8.ofNat i)) = [0x25, high, low] ∧
      hexOctet? high low = some (UInt8.ofNat i) := by
    intro i
    refine ⟨UInt8.ofNat (hexDigit (i / 16)).toNat, UInt8.ofNat (hexDigit (i % 16)).toNat, ?_⟩
    revert i
    decide +kernel
  obtain ⟨high, low, written, value⟩ := digits ⟨b.toNat, b.toNat_lt⟩
  rw [UInt8.ofNat_toNat] at written value
  rw [written, List.cons_append, List.cons_append, List.singleton_append, unescapeOctets, value]

theorem unescapeOctets_escapeOctets (bs rest : List UInt8) :
    unescapeOctets (octets (bs.flatMap escapeOctet) ++ rest) = bs ++ unescapeOctets rest := by
  induction bs with
  | nil => rfl
  | cons b bs ih =>
    rw [List.flatMap_cons, octets_append, List.append_assoc, unescapeOctets_escapeOctet, ih,
      List.cons_append]

/-- An octet other than the percent sign is left as it is. -/
theorem unescapeOctets_cons {b : UInt8} (h : b ≠ 0x25) (rest : List UInt8) :
    unescapeOctets (b :: rest) = b :: unescapeOctets rest := by
  rw [unescapeOctets]
  intro high low tail hb
  exact absurd hb h

/-- A percent sign that begins no escape is left as it is. -/
theorem unescapeOctets_percent {rest : List UInt8}
    (h : ∀ high low tail, rest = high :: low :: tail → hexOctet? high low = none) :
    unescapeOctets (0x25 :: rest) = 0x25 :: unescapeOctets rest := by
  rcases rest with _ | ⟨high, _ | ⟨low, tail⟩⟩
  · rfl
  · rfl
  · rw [unescapeOctets, h high low tail rfl]

section Escape

variable {reserved : Char → Bool}

theorem escape_cons (c : Char) (cs : List Char) : escape reserved (c :: cs)
    = (if reserved c then (octets [c]).flatMap escapeOctet else [c]) ++ escape reserved cs :=
  List.flatMap_cons

/-- A character of an escaped text is left as it was, or part of an escape. -/
theorem mem_escape {c : Char} {cs : List Char} (h : c ∈ escape reserved cs) :
    (c ∈ cs ∧ reserved c = false) ∨ ∃ b, c ∈ escapeOctet b := by
  obtain ⟨d, hd, hc⟩ := List.mem_flatMap.mp h
  by_cases escaped : reserved d = true
  · rw [if_pos escaped] at hc
    obtain ⟨b, -, hb⟩ := List.mem_flatMap.mp hc
    exact .inr ⟨b, hb⟩
  · rw [if_neg escaped, List.mem_singleton] at hc
    rw [hc]
    exact .inl ⟨hd, Bool.eq_false_iff.mpr escaped⟩

/-- What a character is escaped to begins with a percent sign. -/
theorem escaped_cons (c : Char) : ∃ more, (octets [c]).flatMap escapeOctet = '%' :: more := by
  have some : octets [c] ≠ [] := by
    rw [octets, List.flatMap_singleton]
    exact String.utf8EncodeChar_ne_nil
  obtain ⟨b, bs, hb⟩ := List.exists_cons_of_ne_nil some
  rw [hb, List.flatMap_cons, escapeOctet, List.cons_append]
  exact ⟨_, rfl⟩

theorem octets_escaped (c : Char) :
    ∃ more, octets ((octets [c]).flatMap escapeOctet) = 0x25 :: more := by
  obtain ⟨more, begins⟩ := escaped_cons c
  rw [begins, octets_cons, octets_ascii (by decide)]
  exact ⟨_, rfl⟩

/-- Without percent signs nothing has been escaped. -/
theorem escape_eq_self {cs : List Char} (h : '%' ∉ escape reserved cs) : escape reserved cs = cs := by
  induction cs with
  | nil => rfl
  | cons c cs ih =>
    rw [escape_cons, List.mem_append, not_or] at h
    by_cases escaped : reserved c = true
    · obtain ⟨more, begins⟩ := escaped_cons c
      rw [if_pos escaped, begins] at h
      exact absurd List.mem_cons_self h.1
    · rw [escape_cons, if_neg escaped, ih h.2, List.singleton_append]

theorem escape_ne_nil {cs : List Char} (h : cs ≠ []) : escape reserved cs ≠ [] := by
  obtain ⟨c, cs, rfl⟩ := List.exists_cons_of_ne_nil h
  obtain ⟨more, begins⟩ := escaped_cons c
  rw [escape_cons]
  by_cases escaped : reserved c = true
  · rw [if_pos escaped, begins]
    exact List.cons_ne_nil _ _
  · rw [if_neg escaped]
    exact List.cons_ne_nil _ _

variable (ascii : ∀ c, reserved c = false → c.toNat < 0x80)

include ascii

/-- So a digit in front is the first character itself. -/
theorem octets_escape_digit {cs : List Char} {b : UInt8} {rest : List UInt8} {value : Nat}
    (written : octets (escape reserved cs) = b :: rest)
    (digit : hexValue? (Char.ofUInt8 b) = some value) :
    ∃ c more, cs = c :: more ∧ hexValue? c = some value ∧ octets (escape reserved more) = rest := by
  rcases cs with _ | ⟨c, more⟩
  · cases written
  rw [escape_cons, octets_append] at written
  by_cases escaped : reserved c = true
  · obtain ⟨tail, percent⟩ := octets_escaped c
    rw [if_pos escaped, percent, List.cons_append, List.cons.injEq] at written
    have noDigit : hexValue? (Char.ofUInt8 0x25) = none := by decide
    rw [← written.1, noDigit] at digit
    cases digit
  · have plain : c.toNat < 0x80 := ascii c (Bool.eq_false_iff.mpr escaped)
    rw [if_neg escaped, octets_ascii plain, List.singleton_append, List.cons.injEq] at written
    rw [← written.1, ofUInt8_ascii plain] at digit
    exact ⟨c, more, rfl, digit, written.2⟩

/-- A text without escapes comes back when it has been escaped. -/
theorem unescapeOctets_octets_escape {cs : List Char} (free : hasEscape cs = false) :
    unescapeOctets (octets (escape reserved cs)) = octets cs := by
  induction cs with
  | nil => rfl
  | cons c cs ih =>
    rw [hasEscape, Bool.or_eq_false_iff] at free
    have others := ih free.2
    rw [escape_cons, octets_append, octets_cons c cs]
    -- an escape of the text is undone; what was not escaped must not read as one
    by_cases escaped : reserved c = true
    · rw [if_pos escaped, unescapeOctets_escapeOctets, others]
    rw [if_neg escaped, octets_ascii (ascii c (Bool.eq_false_iff.mpr escaped)),
      List.singleton_append, List.singleton_append]
    by_cases percent : c = '%'
    · -- two digits behind it would make the text begin with an escape
      have noEscape : ∀ high low tail, octets (escape reserved cs) = high :: low :: tail →
          hexOctet? high low = none := by
        intro high low tail written
        rcases hhigh : hexValue? (Char.ofUInt8 high) with _ | first
        · rw [hexOctet?, hhigh]
          rfl
        rcases hlow : hexValue? (Char.ofUInt8 low) with _ | second
        · rw [hexOctet?, hhigh, hlow]
          rfl
        obtain ⟨d, ds, rfl, hd, written⟩ := octets_escape_digit ascii written hhigh
        obtain ⟨e, es, rfl, he, -⟩ := octets_escape_digit ascii written hlow
        have starts := free.1
        rw [percent, startsEscape, hd, he] at starts
        cases starts
      have octet : UInt8.ofNat c.toNat = 0x25 := by
        rw [percent]
        rfl
      rw [octet, unescapeOctets_percent noEscape, others]
    · have octet : UInt8.ofNat c.toNat ≠ 0x25 := by
        intro same
        have back := ofUInt8_ascii (ascii c (Bool.eq_false_iff.mpr escaped))
        rw [same] at back
        exact percent (back.symm.trans (by decide))
      rw [unescapeOctets_cons octet, others]

theorem unescape?_escape {cs : List Char} (free : hasEscape cs = false) :
    unescape? (escape reserved cs) = some (String.ofList cs) := by
  rw [unescape?, unescapeOctets_octets_escape ascii free, ofOctets?_octets]

end Escape

end BuildServer.Text
