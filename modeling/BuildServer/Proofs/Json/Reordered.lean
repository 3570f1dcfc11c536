import BuildServer.Proofs.Json.RoundTrip
import Mathlib.Data.List.Forall2
/-!
# Entries in another order

A record is written with its fields in the order of declaration, and it may be kept with its entries
in the order of their names. To a reader who finds fields by name the two are one value, so what is
said of a value that was written is said of every value with the same entries in some order.

A value of that kind differs at every depth from the one that was written, so the relation between
them goes down into items and entries. What a reader needs of two objects is less: as long as no
name occurs twice, each entry of the one has its counterpart under the same name in the other.
-/

set_option autoImplicit false

namespace BuildServer.Json

/-- The second value is the first with the entries of every object in some order. -/
inductive Reordered : Json → Json → Prop
  | same (j : Json) : Reordered j j
  | array {pairs : List (Json × Json)} : (∀ pair ∈ pairs, Reordered pair.1 pair.2) →
      Reordered (.array (pairs.map (·.1))) (.array (pairs.map (·.2)))
  | object {rows : List (String × Json × Json)} {others : List (String × Json)} :
      (∀ row ∈ rows, Reordered row.2.1 row.2.2) →
      others.Perm (rows.map fun row => (row.1, row.2.2)) →
      Reordered (.object (rows.map fun row => (row.1, row.2.1))) (.object others)

variable {room : Nat} {j k : Json} {entries others : List (String × Json)}

/-- A writer could have written the entries in the other order as well. -/
theorem Written.reordered (written : Written room j) (h : Reordered j k) : Written room k := by
  induction h generalizing room with
  | same => exact written
  | array _ ih =>
    cases written with
    | array each =>
      rw [List.forall_mem_map] at each
      refine .array ?_
      rw [List.forall_mem_map]
      exact fun pair hpair => ih pair hpair (each pair hpair)
  | object _ order ih =>
    cases written with
    | object each =>
      rw [List.forall_mem_map] at each
      refine .object fun e he => ?_
      obtain ⟨row, hrow, rfl⟩ := List.mem_map.mp (order.mem_iff.mp he)
      exact ih row hrow (each row hrow)

/-! ## What another order leaves -/

theorem Reordered.of_null (h : Reordered j .null) : j = .null := by
  cases h
  rfl

/-- Items stay where they are. -/
theorem Reordered.exists_items {items : List Json} (h : Reordered (.array items) k) :
    ∃ others, k = .array others ∧ List.Forall₂ Reordered items others := by
  cases h with
  | same => exact ⟨items, rfl, List.forall₂_same.mpr fun item _ => .same item⟩
  | array each =>
    refine ⟨_, rfl, ?_⟩
    rw [List.forall₂_map_left_iff, List.forall₂_map_right_iff, List.forall₂_same]
    exact each

/-- The second list has the entries of the first, in some order and with the values reordered. -/
structure Rearranges (entries others : List (String × Json)) : Prop where
  names : (others.map (·.1)).Perm (entries.map (·.1))
  values : ∀ e ∈ entries, ∃ k, (e.1, k) ∈ others ∧ Reordered e.2 k

theorem Reordered.exists_entries (h : Reordered (.object entries) k) :
    ∃ others, k = .object others ∧ Rearranges entries others := by
  cases h with
  | same => exact ⟨entries, rfl, .refl _, fun e he => ⟨e.2, he, .same e.2⟩⟩
  | object each order =>
    refine ⟨_, rfl, ?_, ?_⟩
    · have names := order.map (·.1)
      rw [List.map_map] at names ⊢
      exact names
    · rw [List.forall_mem_map]
      intro row hrow
      exact ⟨row.2.2, order.mem_iff.mpr (List.mem_map_of_mem hrow), each row hrow⟩

/-- Without an entry that they share, the lists still have the same entries, if no other has its
name. -/
theorem Rearranges.erase {e : String × Json} {before after : List (String × Json)} {k : Json}
    (h : Rearranges (e :: entries) (before ++ (e.1, k) :: after))
    (fresh : e.1 ∉ entries.map (·.1)) : Rearranges entries (before ++ after) := by
  refine ⟨?_, ?_⟩
  · have front : (before ++ (e.1, k) :: after).Perm ((e.1, k) :: (before ++ after)) :=
      List.perm_middle
    have names := (front.map (·.1)).symm.trans h.names
    exact names.cons_inv
  · intro e' he'
    obtain ⟨k', hk', reordered⟩ := h.values e' (List.mem_cons_of_mem _ he')
    have other : (e'.1, k') ≠ (e.1, k) := by
      rintro same
      rw [Prod.mk.injEq] at same
      exact fresh (same.1 ▸ List.mem_map_of_mem he')
    refine ⟨k', ?_, reordered⟩
    simpa [other] using hk'

/-! ## The order of names -/

/-- An entry with a new name joins those that are there. -/
theorem putEntry_perm {key : String} (value : Json) (fresh : key ∉ entries.map (·.1)) :
    (putEntry key value entries).Perm ((key, value) :: entries) := by
  induction entries with
  | nil => rfl
  | cons e entries ih =>
    obtain ⟨name, old⟩ := e
    rw [List.map_cons, List.mem_cons, not_or] at fresh
    rw [putEntry]
    by_cases before : key < name
    · rw [if_pos before]
    · rw [if_neg before, if_neg fresh.1]
      exact ((ih fresh.2).cons _).trans (.swap _ _ _)

/-- As long as no name occurs twice, no entry is lost. -/
theorem tabulatedEntries_perm {done : List (String × Json)}
    (distinct : ((entries ++ done).map (·.1)).Nodup) :
    (tabulatedEntries done entries).Perm (entries.map (fun e => (e.1, e.2.tabulated)) ++ done) := by
  induction entries generalizing done with
  | nil => exact .refl _
  | cons e entries ih =>
    rw [List.cons_append, List.map_cons, List.nodup_cons, List.map_append, List.mem_append,
      not_or] at distinct
    obtain ⟨⟨notLater, notDone⟩, distinct⟩ := distinct
    have placed := putEntry_perm e.2.tabulated notDone
    have names : ((entries ++ putEntry e.1 e.2.tabulated done).map (·.1)).Perm
        (e.1 :: (entries.map (·.1) ++ done.map (·.1))) := by
      have moved := ((placed.append_left entries).trans List.perm_middle).map (·.1)
      simpa using moved
    have stillDistinct : ((entries ++ putEntry e.1 e.2.tabulated done).map (·.1)).Nodup := by
      rw [names.nodup_iff, List.nodup_cons, List.mem_append, not_or]
      exact ⟨⟨notLater, notDone⟩, distinct⟩
    rw [tabulatedEntries]
    exact (ih stillDistinct).trans ((placed.append_left _).trans List.perm_middle)

theorem tabulatedItems_eq (items : List Json) : tabulatedItems items = items.map tabulated := by
  induction items with
  | nil => rfl
  | cons item items ih => rw [tabulatedItems, ih, List.map_cons]

/-- The order of names is another order of an array if it is one of its items. -/
theorem reordered_tabulated_array {items : List Json}
    (each : ∀ item ∈ items, Reordered item item.tabulated) :
    Reordered (.array items) (Json.array items).tabulated := by
  have reordered : Reordered (.array ((items.map fun item => (item, item.tabulated)).map (·.1)))
      (.array ((items.map fun item => (item, item.tabulated)).map (·.2))) := by
    refine .array ?_
    rw [List.forall_mem_map]
    exact each
  rw [tabulated, tabulatedItems_eq]
  simpa [Function.comp_def] using reordered

section Common

variable {α : Type} {encode : α → Json}

theorem reordered_tabulated_ofOption (each : ∀ a, Reordered (encode a) (encode a).tabulated)
    (o : Option α) : Reordered (ofOption encode o) (ofOption encode o).tabulated := by
  cases o with
  | none => exact .same _
  | some a => exact each a

theorem reordered_tabulated_ofList (each : ∀ a, Reordered (encode a) (encode a).tabulated)
    (as : List α) : Reordered (ofList encode as) (ofList encode as).tabulated := by
  refine reordered_tabulated_array ?_
  rw [List.forall_mem_map]
  exact fun a _ => each a

end Common

/-- The order of names is another order of an object with no name twice, if it is one of each of its
values. -/
theorem reordered_tabulated_object (distinct : (entries.map (·.1)).Nodup)
    (each : ∀ e ∈ entries, Reordered e.2 e.2.tabulated) :
    Reordered (.object entries) (Json.object entries).tabulated := by
  have order : (tabulatedEntries [] entries).Perm
      (entries.map (fun e => (e.1, e.2.tabulated)) ++ []) :=
    tabulatedEntries_perm (by simpa using distinct)
  have reordered : Reordered
      (.object ((entries.map fun e => (e.1, e.2, e.2.tabulated)).map fun row => (row.1, row.2.1)))
      (.object (tabulatedEntries [] entries)) := by
    refine .object ?_ ?_
    · rw [List.forall_mem_map]
      exact each
    · simpa [Function.comp_def] using order
  rw [tabulated]
  simpa [Function.comp_def] using reordered

end BuildServer.Json
