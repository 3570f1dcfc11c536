import BuildServer.Regex.Basic
import Mathlib.Logic.Relation
/-!
# What expressions mean

An expression leads from one place of a text to another, where a place is told by the rest of the text
behind it. That is what the documentation of the `regex` library says of each construct, and it is what
is asked of a library: if it accepts an expression, it finds a match exactly if the expression leads from
one place of the text to another.

Expressions are read from texts one item at a time. An item does not depend on what comes behind it, so
for each there is an equation that holds with anything behind it, in any group.
-/

set_option autoImplicit false

namespace BuildServer

namespace Regex

variable {text start finish : List Char} {e : Regex} {es : List Regex}

/-! ## Leading from place to place -/

/-- The expression leads from the place with the first rest to the place with the second one. -/
def Leads (text : List Char) : Regex → List Char → List Char → Prop
  | .empty, start, finish => finish = start
  | .start, start, finish => start = text ∧ finish = start
  | .finish, start, finish => start = [] ∧ finish = start
  | .literal c, start, finish => start = c :: finish
  | .dot, start, finish => ∃ c, c ≠ '\n' ∧ start = c :: finish
  | .except c, start, finish => ∃ d, d ≠ c ∧ start = d :: finish
  | .concat first second, start, finish =>
    ∃ middle, first.Leads text start middle ∧ second.Leads text middle finish
  | .star e, start, finish => Relation.ReflTransGen (e.Leads text) start finish

/-- There is a match for the expression somewhere in the text. -/
def FoundIn (e : Regex) (text : List Char) : Prop :=
  ∃ start finish, start <:+ text ∧ e.Leads text start finish

/-- An expression leads only onward. -/
theorem Leads.suffix (h : e.Leads text start finish) : finish <:+ start := by
  induction e generalizing start finish with
  | empty => exact h ▸ List.suffix_refl _
  | start | finish => exact h.2 ▸ List.suffix_refl _
  | literal c => exact h ▸ List.suffix_cons c finish
  | dot | except =>
    obtain ⟨c, -, rfl⟩ := h
    exact List.suffix_cons c finish
  | concat first second ihFirst ihSecond =>
    obtain ⟨middle, first, second⟩ := h
    exact (ihSecond second).trans (ihFirst first)
  | star e ih =>
    induction h with
    | refl => exact List.suffix_refl _
    | tail _ last before => exact (ih last).trans before

/-! ## What expressions take

Where no end of the text is asked for, it does not matter at which place an expression stands. -/

/-- At every place, the expression leads past a text with the property, and past nothing else. -/
def Takes (text : List Char) (e : Regex) (P : List Char → Prop) : Prop :=
  ∀ start finish, e.Leads text start finish ↔ ∃ piece, P piece ∧ start = piece ++ finish

theorem Takes.congr {P Q : List Char → Prop} (h : e.Takes text P) (same : ∀ piece, P piece ↔ Q piece) :
    e.Takes text Q := by
  intro start finish
  rw [h]
  exact exists_congr fun piece => and_congr_left fun _ => same piece

theorem takes_empty : Regex.empty.Takes text (· = []) := by
  intro start finish
  rw [Leads, exists_eq_left, List.nil_append, eq_comm]

theorem takes_literal (c : Char) : (literal c).Takes text (· = [c]) := by
  intro start finish
  rw [Leads, exists_eq_left, List.singleton_append]

/-- A character other than the given one. -/
theorem takes_except (c : Char) : (except c).Takes text (∃ d, d ≠ c ∧ · = [d]) := by
  intro start finish
  rw [Leads]
  constructor
  · rintro ⟨d, other, rfl⟩
    exact ⟨[d], ⟨d, other, rfl⟩, rfl⟩
  · rintro ⟨_, ⟨d, other, rfl⟩, rfl⟩
    exact ⟨d, other, rfl⟩

theorem takes_dot : dot.Takes text (∃ d, d ≠ '\n' ∧ · = [d]) :=
  @takes_except text '\n'

theorem Takes.concat {first second : Regex} {P Q : List Char → Prop} (h₁ : first.Takes text P)
    (h₂ : second.Takes text Q) :
    (first.concat second).Takes text (∃ piece more, P piece ∧ Q more ∧ · = piece ++ more) := by
  intro start finish
  rw [Leads]
  constructor
  · rintro ⟨middle, before, behind⟩
    obtain ⟨piece, holds, rfl⟩ := (h₁ _ _).mp before
    obtain ⟨more, holds', rfl⟩ := (h₂ _ _).mp behind
    exact ⟨piece ++ more, ⟨piece, more, holds, holds', rfl⟩, (List.append_assoc _ _ _).symm⟩
  · rintro ⟨_, ⟨piece, more, holds, holds', rfl⟩, rfl⟩
    exact ⟨more ++ finish, (h₁ _ _).mpr ⟨piece, holds, List.append_assoc _ _ _⟩,
      (h₂ _ _).mpr ⟨more, holds', rfl⟩⟩

/-- A star takes any number of the texts that its expression takes. -/
theorem Takes.star {P : List Char → Prop} (h : e.Takes text P) :
    e.star.Takes text (∃ pieces : List (List Char), (∀ piece ∈ pieces, P piece) ∧ · = pieces.flatten) := by
  intro start finish
  rw [Leads]
  constructor
  · intro reached
    induction reached using Relation.ReflTransGen.head_induction_on with
    | refl => exact ⟨[], ⟨[], List.forall_mem_nil _, rfl⟩, rfl⟩
    | head led _ ih =>
      obtain ⟨piece, holds, rfl⟩ := (h _ _).mp led
      obtain ⟨_, ⟨pieces, all, rfl⟩, rfl⟩ := ih
      refine ⟨piece ++ pieces.flatten, ⟨piece :: pieces, ?_, rfl⟩, (List.append_assoc _ _ _).symm⟩
      exact List.forall_mem_cons.mpr ⟨holds, all⟩
  · rintro ⟨_, ⟨pieces, all, rfl⟩, rfl⟩
    induction pieces with
    | nil => exact .refl
    | cons piece pieces ih =>
      rw [List.forall_mem_cons] at all
      refine .head ((h _ _).mpr ⟨piece, all.1, ?_⟩) (ih all.2)
      rw [List.flatten_cons, List.append_assoc]

/-- A star of any character but one takes the texts without that one. -/
theorem Takes.star_without {c : Char} (h : e.Takes text (∃ d, d ≠ c ∧ · = [d])) :
    e.star.Takes text (c ∉ ·) := by
  refine h.star.congr fun piece => ?_
  constructor
  · rintro ⟨pieces, all, rfl⟩ member
    obtain ⟨single, hsingle, inside⟩ := List.mem_flatten.mp member
    obtain ⟨d, other, rfl⟩ := all single hsingle
    exact other (List.mem_singleton.mp inside).symm
  · intro without
    refine ⟨piece.map ([·]), ?_, ?_⟩
    · rw [List.forall_mem_map]
      exact fun d member => ⟨d, fun same => without (same ▸ member), rfl⟩
    · rw [← List.flatMap_def, List.flatMap_singleton']

/-! ## Reading texts -/

section Reading

variable (around : List (List Regex)) (done : List Regex) (rest : List Char)

/-- A character without a meaning of its own is read as itself. -/
theorem readFrom_plain {c : Char} (plain : isMeta c = false) :
    readFrom around done (c :: rest) = readFrom around (.literal c :: done) rest := by
  rw [readFrom.eq_def]
  split <;> simp_all [isMeta]

/-- Behind a backslash it is read as itself if it has a meaning of its own. -/
theorem readFrom_backslash {c : Char} (special : isMeta c = true) :
    readFrom around done ('\\' :: c :: rest) = readFrom around (.literal c :: done) rest := by
  rw [readFrom, if_pos special]

/-- An escaped character is read as itself wherever it stands. -/
theorem readFrom_escape (c : Char) :
    readFrom around done (escape [c] ++ rest) = readFrom around (.literal c :: done) rest := by
  rcases special : isMeta c with _ | _
  · have single : escape [c] = [c] := by simp [escape, special]
    rw [single]
    exact readFrom_plain around done rest special
  · have pair : escape [c] = ['\\', c] := by simp [escape, special]
    rw [pair]
    exact readFrom_backslash around done rest special

end Reading

end Regex

/-- What is asked of a library: of the expressions that it accepts, it finds a match exactly where there
is one. -/
structure RegexLibrary.Lawful [RegexLibrary] : Prop where
  isMatch_iff : ∀ (e : Regex) (text : List Char), RegexLibrary.accepts e = true →
    (RegexLibrary.isMatch e text = true ↔ e.FoundIn text)

end BuildServer
