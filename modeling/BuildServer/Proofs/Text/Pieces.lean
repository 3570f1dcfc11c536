import BuildServer.Text.Pieces
import Mathlib.Data.List.Infix
/-!
# Cutting a text at a separator

A text without a separator is one piece, and any other text is cut at its first separator into a piece
and what comes behind it. There is no third case, so all that is said of pieces follows from these two:
how pieces stand in the text, and how a text is put together from pieces that are given.
-/

set_option autoImplicit false

namespace BuildServer.Text

variable {separator c : Char} {cs piece : List Char} {blocks rest : List (List Char)}

theorem pieces_of_notMem (h : separator ∉ cs) : pieces separator cs = [cs] := by
  induction cs with
  | nil => rfl
  | cons c cs ih =>
    rw [List.mem_cons, not_or] at h
    rw [pieces, if_neg (Ne.symm h.1), ih h.2]

/-- A piece ends at the first separator. -/
theorem pieces_append (h : separator ∉ cs) (rest : List Char) :
    pieces separator (cs ++ separator :: rest) = cs :: pieces separator rest := by
  induction cs with
  | nil => rw [List.nil_append, pieces, if_pos rfl]
  | cons c cs ih =>
    rw [List.mem_cons, not_or] at h
    rw [List.cons_append, pieces, if_neg (Ne.symm h.1), ih h.2]

/-- A text is one piece, or it is cut at its first separator. -/
inductive Cut (separator : Char) : List Char → Prop
  | whole {piece : List Char} : separator ∉ piece → Cut separator piece
  | first {piece behind : List Char} : separator ∉ piece → Cut separator behind →
      Cut separator (piece ++ separator :: behind)

theorem cut (separator : Char) (cs : List Char) : Cut separator cs := by
  induction cs with
  | nil => exact .whole List.not_mem_nil
  | cons c cs ih =>
    by_cases same : c = separator
    · rw [same]
      exact .first List.not_mem_nil ih
    · -- the character joins the first piece of what comes behind it
      cases ih with
      | whole absent => exact .whole (List.not_mem_cons_of_ne_of_not_mem (Ne.symm same) absent)
      | first absent behind =>
        rw [← List.cons_append]
        exact .first (List.not_mem_cons_of_ne_of_not_mem (Ne.symm same) absent) behind

theorem pieces_ne_nil (separator : Char) (cs : List Char) : pieces separator cs ≠ [] := by
  cases cut separator cs with
  | whole absent => simp [pieces_of_notMem absent]
  | first absent => simp [pieces_append absent]

/-- Any character but the separator stands in one of the pieces. -/
theorem mem_iff_exists_piece (other : c ≠ separator) :
    c ∈ cs ↔ ∃ piece ∈ pieces separator cs, c ∈ piece := by
  induction cut separator cs with
  | whole absent => simp [pieces_of_notMem absent]
  | first absent _ ih => simp [pieces_append absent, ih, other]

/-- A piece stands in the text as it is. -/
theorem infix_of_mem_pieces (h : piece ∈ pieces separator cs) : piece <:+: cs := by
  induction cut separator cs with
  | whole absent =>
    rw [pieces_of_notMem absent, List.mem_singleton] at h
    rw [h]
  | @first front behind absent _ ih =>
    rw [pieces_append absent, List.mem_cons] at h
    rcases h with rfl | h
    · exact (List.prefix_append _ _).isInfix
    · exact (ih h).trans ((List.suffix_cons _ _).trans (List.suffix_append _ _)).isInfix

/-! ## From pieces to the text -/

theorem eq_of_pieces_eq_singleton (h : pieces separator cs = [piece]) :
    cs = piece ∧ separator ∉ piece := by
  cases cut separator cs with
  | whole absent =>
    rw [pieces_of_notMem absent, List.cons.injEq] at h
    exact ⟨h.1, h.1 ▸ absent⟩
  | first absent =>
    rw [pieces_append absent, List.cons.injEq] at h
    exact absurd h.2 (pieces_ne_nil _ _)

/-- Where further pieces come after the first one, it is followed by a separator. -/
theorem exists_behind_of_pieces_eq_cons (h : pieces separator cs = piece :: rest) (more : rest ≠ []) :
    ∃ behind, cs = piece ++ separator :: behind ∧ separator ∉ piece ∧
      pieces separator behind = rest := by
  cases cut separator cs with
  | whole absent =>
    rw [pieces_of_notMem absent, List.cons.injEq] at h
    exact absurd h.2.symm more
  | first absent =>
    rw [pieces_append absent, List.cons.injEq] at h
    obtain ⟨rfl, behind⟩ := h
    exact ⟨_, rfl, absent, behind⟩

/-- Pieces with their separators in front of a text are cut off it. -/
theorem pieces_flatMap_append (absent : ∀ block ∈ blocks, separator ∉ block) (cs : List Char) :
    pieces separator (blocks.flatMap (· ++ [separator]) ++ cs) = blocks ++ pieces separator cs := by
  induction blocks with
  | nil => rfl
  | cons block blocks ih =>
    rw [List.forall_mem_cons] at absent
    rw [List.flatMap_cons, List.append_assoc, List.append_assoc, List.singleton_append,
      pieces_append absent.1, ih absent.2, List.cons_append]

/-- Pieces that others come after stand at the front of the text, with their separators. -/
theorem exists_behind_of_pieces_eq_append (h : pieces separator cs = blocks ++ rest)
    (more : rest ≠ []) : ∃ behind, cs = blocks.flatMap (· ++ [separator]) ++ behind ∧
      (∀ block ∈ blocks, separator ∉ block) ∧ pieces separator behind = rest := by
  induction blocks generalizing cs with
  | nil => exact ⟨cs, rfl, List.forall_mem_nil _, h⟩
  | cons block blocks ih =>
    obtain ⟨behind, rfl, absent, hbehind⟩ :=
      exists_behind_of_pieces_eq_cons h (List.append_ne_nil_of_right_ne_nil _ more)
    obtain ⟨last, rfl, absents, hlast⟩ := ih hbehind
    refine ⟨last, ?_, List.forall_mem_cons.mpr ⟨absent, absents⟩, hlast⟩
    rw [List.flatMap_cons, List.append_assoc, List.append_assoc, List.singleton_append]

end BuildServer.Text
