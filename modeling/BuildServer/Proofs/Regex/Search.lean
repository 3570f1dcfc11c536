import BuildServer.Proofs.Regex.Meaning
import BuildServer.Regex.Search
/-!
# The search finds the matches

Marks stand for places, so each operation on marks is described by the places that are marked before and
after it. The one with an argument to it is the sweep. It goes over the text from the front, by induction
on the text: what a star leads to from the first place is that place, and whatever it leads to from a place
further on to which the expression leads in one step. Those are marked when the sweep gets there, and a
step that leads nowhere may be left out.
-/

set_option autoImplicit false

namespace BuildServer

namespace Regex

variable {text rest place goal whole : List Char} {marks more : List Bool} {c : Char} {m first : Bool}

/-- The place of the text is marked. -/
inductive Marked : List Char → List Bool → List Char → Prop
  | here (text : List Char) (marks : List Bool) : Marked text (true :: marks) text
  | behind {rest place : List Char} {marks : List Bool} (c : Char) (m : Bool) :
      Marked rest marks place → Marked (c :: rest) (m :: marks) place

/-! ## Places that are marked -/

theorem not_marked_nil : ¬ Marked text [] place := nofun

theorem marked_cons :
    Marked (c :: rest) (m :: marks) place ↔ (m = true ∧ place = c :: rest) ∨ Marked rest marks place := by
  constructor
  · rintro (_ | ⟨_, _, further⟩)
    · exact .inl ⟨rfl, rfl⟩
    · exact .inr further
  · rintro (⟨rfl, rfl⟩ | further)
    · exact .here _ _
    · exact .behind _ _ further

theorem marked_cons_of_nil : Marked [] (m :: marks) place ↔ m = true ∧ place = [] := by
  constructor
  · rintro ⟨⟩
    exact ⟨rfl, rfl⟩
  · rintro ⟨rfl, rfl⟩
    exact .here _ _

/-- The first mark is for the first place, and the others are as they are without it. -/
theorem marked_cons_iff :
    Marked text (m :: marks) place ↔ (m = true ∧ place = text) ∨ Marked text (false :: marks) place := by
  cases text with
  | nil => simp [marked_cons_of_nil]
  | cons c rest => simp [marked_cons]

theorem marked_first : Marked text [true] place ↔ place = text := by
  cases text with
  | nil => simp [marked_cons_of_nil]
  | cons c rest => simp [marked_cons, not_marked_nil]

/-- What is marked are rests of the text. -/
theorem Marked.suffix (h : Marked text marks place) : place <:+ text := by
  induction h with
  | here => exact List.suffix_refl _
  | behind c _ _ ih => exact ih.trans (List.suffix_cons c _)

/-- Behind the first place it is not marked again. -/
theorem not_marked_behind : ¬ Marked rest marks (c :: rest) := by
  intro h
  have shorter := h.suffix.length_le
  rw [List.length_cons] at shorter
  omega

theorem marked_tail : Marked rest marks.tail place ↔ Marked (c :: rest) marks place ∧ place ≠ c :: rest := by
  cases marks with
  | nil => simp [not_marked_nil]
  | cons m marks =>
    rw [List.tail_cons, marked_cons]
    constructor
    · intro further
      refine ⟨.inr further, ?_⟩
      rintro rfl
      exact not_marked_behind further
    · rintro ⟨⟨-, rfl⟩ | further, other⟩
      · exact absurd rfl other
      · exact further

theorem marked_replicate : Marked text (List.replicate (text.length + 1) true) place ↔ place <:+ text := by
  induction text with
  | nil => rw [List.replicate_succ, marked_cons_of_nil, List.suffix_nil, eq_self, true_and]
  | cons c rest ih =>
    rw [List.replicate_succ, List.length_cons, marked_cons, ih, List.suffix_cons_iff, eq_self, true_and]

theorem hasMark_iff : hasMark text marks = true ↔ ∃ place, Marked text marks place := by
  induction text generalizing marks with
  | nil =>
    rcases marks with _ | ⟨_ | _, marks⟩ <;> simp [hasMark, marked_cons_of_nil, not_marked_nil]
  | cons c rest ih =>
    rcases marks with _ | ⟨_ | _, marks⟩ <;> simp [hasMark, marked_cons, not_marked_nil, ih]

/-! ## Moving marks -/

theorem marked_union :
    Marked text (union marks more) place ↔ Marked text marks place ∨ Marked text more place := by
  induction text generalizing marks more with
  | nil =>
    cases marks <;> cases more <;> simp [union, marked_cons_of_nil, not_marked_nil, or_and_right]
  | cons c rest ih =>
    rcases marks with _ | ⟨m, marks⟩
    · simp [union, not_marked_nil]
    rcases more with _ | ⟨n, more⟩
    · simp [union, not_marked_nil]
    · rw [union, marked_cons, marked_cons, marked_cons, ih, Bool.or_eq_true, or_and_right]
      exact or_or_or_comm

/-- A mark is moved on to the place behind the character that stands there. -/
theorem marked_moveOn {property : Char → Bool} :
    Marked text (false :: moveOn property text marks) goal ↔
      ∃ place, Marked text marks place ∧ ∃ c, property c = true ∧ place = c :: goal := by
  induction text generalizing marks with
  | nil =>
    rw [moveOn, marked_cons_of_nil]
    refine iff_of_false nofun ?_
    rintro ⟨place, marked, c, -, rfl⟩
    exact List.cons_ne_nil _ _ (List.suffix_nil.mp marked.suffix)
  | cons c rest ih =>
    rcases marks with _ | ⟨m, marks⟩
    · simp [moveOn, marked_cons, not_marked_nil]
    rw [moveOn, marked_cons, marked_cons_iff, ih, Bool.and_eq_true]
    simp only [Bool.false_eq_true, false_and, false_or, marked_cons, or_and_right, exists_or]
    refine or_congr_left ?_
    constructor
    · rintro ⟨⟨marked, holds⟩, rfl⟩
      exact ⟨c :: goal, ⟨marked, rfl⟩, c, holds, rfl⟩
    · rintro ⟨_, ⟨marked, rfl⟩, d, holds, same⟩
      cases same
      exact ⟨⟨marked, holds⟩, rfl⟩

theorem marked_atEnd : Marked text (atEnd text marks) goal ↔ Marked text marks goal ∧ goal = [] := by
  induction text generalizing marks with
  | nil =>
    rw [atEnd, iff_self_and]
    exact fun marked => List.suffix_nil.mp marked.suffix
  | cons c rest ih =>
    rcases marks with _ | ⟨m, marks⟩
    · simp [atEnd, not_marked_nil]
    · rw [atEnd, marked_cons, marked_cons, ih]
      constructor
      · rintro (⟨⟨⟩, -⟩ | ⟨marked, rfl⟩)
        exact ⟨.inr marked, rfl⟩
      · rintro ⟨⟨-, rfl⟩ | marked, atEnd⟩
        · cases atEnd
        · exact .inr ⟨marked, atEnd⟩

theorem marked_take_one : Marked text (marks.take 1) goal ↔ Marked text marks goal ∧ goal = text := by
  rcases marks with _ | ⟨m, marks⟩
  · simp [not_marked_nil]
  rw [List.take_succ_cons, List.take_zero]
  cases text with
  | nil => simp [marked_cons_of_nil]
  | cons c rest =>
    simp only [marked_cons, not_marked_nil, or_false]
    constructor
    · exact fun marked => ⟨.inl marked, marked.2⟩
    · rintro ⟨marked | further, rfl⟩
      · exact marked
      · exact absurd further not_marked_behind

/-! ## The sweep -/

/-- The text is the whole one, if this is its first place, or what is left of it. -/
structure LeftOf (whole : List Char) (first : Bool) (text : List Char) : Prop where
  suffix : text <:+ whole
  first_iff : first = true ↔ text = whole

theorem LeftOf.behind (h : LeftOf whole first (c :: rest)) : LeftOf whole false rest where
  suffix := (List.suffix_cons c rest).trans h.suffix
  first_iff := by
    refine iff_of_false nofun ?_
    rintro rfl
    have shorter := h.suffix.length_le
    rw [List.length_cons] at shorter
    omega

/-- A way leads nowhere, or its first step that leads anywhere is made, and the way goes on from there. -/
theorem reached_iff {α : Type} {r : α → α → Prop} {a b : α} :
    Relation.ReflTransGen r a b ↔ b = a ∨ ∃ c, (r a c ∧ c ≠ a) ∧ Relation.ReflTransGen r c b := by
  constructor
  · intro way
    induction way using Relation.ReflTransGen.head_induction_on with
    | refl => exact .inl rfl
    | @head a c step more ih =>
      by_cases same : c = a
      · exact same ▸ ih
      · exact .inr ⟨c, ⟨step, same⟩, more⟩
  · rintro (rfl | ⟨c, ⟨step, -⟩, more⟩)
    · exact .refl
    · exact .head step more

/-- A sweep goes as far as steps lead, if from each place a step leads as it should. -/
theorem marked_sweep {step : Bool → List Char → List Bool} {leads : List Char → List Char → Prop}
    (onward : ∀ {place goal}, leads place goal → goal <:+ place)
    (spec : ∀ {first text}, LeftOf whole first text →
      ∀ goal, Marked text (step first text) goal ↔ leads text goal)
    (left : LeftOf whole first text) :
    Marked text (sweep step first text marks) goal ↔
      ∃ place, Marked text marks place ∧ Relation.ReflTransGen leads place goal := by
  induction text generalizing first marks with
  | nil =>
    rw [sweep]
    constructor
    · exact fun marked => ⟨goal, marked, .refl⟩
    · rintro ⟨place, marked, way⟩
      -- the end is the only place, and from there nothing leads on
      have stays : ∀ next, leads place next → next = place := by
        intro next led
        have atEnd := List.suffix_nil.mp marked.suffix
        rw [atEnd] at led ⊢
        exact List.suffix_nil.mp (onward led)
      rcases reached_iff.mp way with rfl | ⟨next, ⟨led, other⟩, -⟩
      · exact marked
      · exact absurd (stays next led) other
  | cons c rest ih =>
    rcases marks with _ | ⟨m, marks⟩
    · rw [sweep]
      simp [not_marked_nil]
    rw [sweep, marked_cons, ih left.behind]
    cases m with
    | false => simp [marked_cons]
    | true =>
      -- the mark of the first place is not needed again, since no step leads back to it
      have further : ∀ place, Marked rest (step first (c :: rest)).tail place ↔
          leads (c :: rest) place ∧ place ≠ c :: rest := by
        intro place
        rw [marked_tail, spec left]
      simp only [if_true, true_and, marked_union, marked_cons, further, or_and_right, exists_or,
        exists_eq_left]
      have fromFirst := reached_iff (r := leads) (a := c :: rest) (b := goal)
      rw [fromFirst, or_assoc]
      exact or_congr_right or_comm

/-! ## Searches -/

/-- A search goes to the places to which the expression leads. -/
theorem marked_reach (e : Regex) (left : LeftOf whole first text) :
    Marked text (reach e first text marks) goal ↔
      ∃ place, Marked text marks place ∧ e.Leads whole place goal := by
  induction e generalizing first text marks goal with
  | empty => simp [reach, Leads]
  | start =>
    rw [reach]
    by_cases here : first = true
    · obtain rfl := left.first_iff.mp here
      rw [if_pos here, marked_take_one]
      constructor
      · rintro ⟨marked, rfl⟩
        exact ⟨goal, marked, rfl, rfl⟩
      · rintro ⟨_, marked, rfl, rfl⟩
        exact ⟨marked, rfl⟩
    · -- the whole text is not a rest of what is left of it
      rw [if_neg here]
      refine iff_of_false not_marked_nil ?_
      rintro ⟨_, marked, rfl, rfl⟩
      exact here (left.first_iff.mpr (left.suffix.eq_of_length_le marked.suffix.length_le))
  | finish =>
    rw [reach, marked_atEnd]
    constructor
    · rintro ⟨marked, rfl⟩
      exact ⟨[], marked, rfl, rfl⟩
    · rintro ⟨_, marked, rfl, rfl⟩
      exact ⟨marked, rfl⟩
  | literal c => simp only [reach, marked_moveOn, beq_iff_eq, exists_eq_left, Leads]
  | dot | except => simp only [reach, marked_moveOn, bne_iff_ne, Leads]
  | concat e f ihFirst ihSecond =>
    -- what the first expression marks is where the second one starts from
    simp only [reach, ihSecond left, ihFirst left, Leads]
    constructor
    · rintro ⟨middle, ⟨place, marked, before⟩, behind⟩
      exact ⟨place, marked, middle, before, behind⟩
    · rintro ⟨place, marked, middle, before, behind⟩
      exact ⟨middle, ⟨place, marked, before⟩, behind⟩
  | star e ih =>
    rw [reach]
    -- a step of the sweep is the expression itself, from one place alone
    refine marked_sweep Leads.suffix ?_ left
    intro first text left goal
    simp only [ih left, marked_first, exists_eq_left]

theorem search_iff (e : Regex) (text : List Char) : e.search text = true ↔ e.FoundIn text := by
  have whole : LeftOf text true text := ⟨List.suffix_refl _, iff_of_true rfl rfl⟩
  rw [search, hasMark_iff, FoundIn, exists_comm]
  simp only [marked_reach e whole, marked_replicate]

end Regex

/-- The library that is there to run finds what there is. -/
theorem lawful_searchLibrary : RegexLibrary.Lawful where
  isMatch_iff e text _ := Regex.search_iff e text

end BuildServer
