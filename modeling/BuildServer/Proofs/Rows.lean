import BuildServer.Rows
/-!
# Putting a row in

What is said here of a row that is put in is said of both: what is found under a key afterwards, and
where in the list the row stands. A row whose key is already there takes the place of the one that
has it, and any other goes to the end, so a table stands in the order in which its keys came in.
-/

set_option autoImplicit false

namespace BuildServer

variable {α κ : Type} [DecidableEq κ] {key : α → κ} {row old : α} {rows : List α} {k : κ}

/-- What is found after a row was put in. -/
theorem find?_putRow (key : α → κ) (row : α) (rows : List α) (k : κ) :
    (putRow key row rows).find? (key · == k)
      = if key row = k then some row else rows.find? (key · == k) := by
  induction rows with
  | nil =>
    rw [putRow, List.find?_singleton]
    by_cases hk : key row = k <;> simp [hk]
  | cons other rest ih =>
    rw [putRow]
    by_cases hsame : key other = key row
    · rw [if_pos hsame]
      by_cases hk : key row = k
      · simp [hk]
      · have hother : key other ≠ k := hsame ▸ hk
        simp [hk, hother]
    · rw [if_neg hsame, List.find?_cons, List.find?_cons, ih]
      by_cases hother : key other = k
      · have hk : key row ≠ k := fun e => hsame (hother.trans e.symm)
        simp [hother, hk]
      · have hmiss : (key other == k) = false := beq_eq_false_iff_ne.mpr hother
        rw [hmiss]

/-- A row whose key is not there goes to the end. -/
theorem putRow_fresh (fresh : ∀ other ∈ rows, key other ≠ key row) :
    putRow key row rows = rows ++ [row] := by
  induction rows with
  | nil => rfl
  | cons other rest ih =>
    have hother : key other ≠ key row := fresh other List.mem_cons_self
    have hrest : ∀ r ∈ rest, key r ≠ key row := fun r hr => fresh r (List.mem_cons_of_mem _ hr)
    rw [putRow, if_neg hother, ih hrest, List.cons_append]

/-- A row whose key is there takes the place of the one that has it. -/
theorem putRow_split (h : rows.find? (key · == k) = some old) :
    ∃ before after, rows = before ++ old :: after ∧
      ∀ row : α, key row = k → putRow key row rows = before ++ row :: after := by
  rw [List.find?_eq_some_iff_append] at h
  obtain ⟨hold, before, after, split, others⟩ := h
  refine ⟨before, after, split, ?_⟩
  intro row hk
  rw [split]
  clear split
  induction before with
  | nil =>
    have hsame : key old = key row := by rw [hk]; exact beq_iff_eq.mp hold
    rw [List.nil_append, putRow, if_pos hsame, List.nil_append]
  | cons other rest ih =>
    have hother : key other ≠ key row := by
      have := others other List.mem_cons_self
      rw [hk]
      simpa using this
    rw [List.cons_append, putRow, if_neg hother,
      ih (fun r hr => others r (List.mem_cons_of_mem _ hr)), List.cons_append]

/-- A column of the table in which the row agrees with the one it replaces stays as it is. -/
theorem map_putRow {β : Type} (f : α → β) (h : rows.find? (key · == key row) = some old)
    (agree : f row = f old) : (putRow key row rows).map f = rows.map f := by
  obtain ⟨before, after, split, put⟩ := putRow_split h
  rw [put row rfl, split]
  simp only [List.map_append, List.map_cons, agree]

/-- Where keys do not repeat, a row takes the place of the one that has its key, and no other row
changes. -/
theorem putRow_eq_map (distinct : (rows.map key).Nodup)
    (h : rows.find? (key · == key row) = some old) :
    putRow key row rows = rows.map fun other => if key other = key row then row else other := by
  obtain ⟨before, after, split, put⟩ := putRow_split h
  have found := List.find?_some h
  have hold : key old = key row := beq_iff_eq.mp found
  rw [split, List.map_append, List.map_cons, List.perm_middle.nodup_iff, List.nodup_cons,
    ← List.map_append, hold] at distinct
  have unchanged : ∀ part ⊆ before ++ after,
      (part.map fun other => if key other = key row then row else other) = part := by
    intro part hpart
    have kept : ∀ other ∈ part, (if key other = key row then row else other) = id other := by
      intro other hother
      refine if_neg fun same => distinct.1 ?_
      rw [← same]
      exact List.mem_map_of_mem (hpart hother)
    rw [List.map_congr_left kept, List.map_id]
  rw [put row rfl, split, List.map_append, List.map_cons, if_pos hold,
    unchanged before (List.subset_append_left _ _), unchanged after (List.subset_append_right _ _)]

/-- A row of the table was put in, or was there before. -/
theorem mem_putRow {other : α} (h : other ∈ putRow key row rows) : other = row ∨ other ∈ rows := by
  induction rows with
  | nil => exact Or.inl (List.mem_singleton.mp h)
  | cons head rest ih =>
    rw [putRow] at h
    split at h
    · rcases List.mem_cons.mp h with rfl | hrest
      · exact Or.inl rfl
      · exact Or.inr (List.mem_cons_of_mem _ hrest)
    · rcases List.mem_cons.mp h with rfl | hrest
      · exact Or.inr List.mem_cons_self
      · exact (ih hrest).imp_right (List.mem_cons_of_mem _)

/-- No key comes in twice. -/
theorem nodup_putRow (distinct : (rows.map key).Nodup) (row : α) :
    ((putRow key row rows).map key).Nodup := by
  rcases found : rows.find? (key · == key row) with _ | old
  · have fresh : ∀ other ∈ rows, key other ≠ key row := by
      simpa using List.find?_eq_none.mp found
    rw [putRow_fresh fresh, List.map_append, List.nodup_append]
    refine ⟨distinct, List.pairwise_singleton _ _, ?_⟩
    intro k hk other hother
    obtain ⟨stored, hstored, rfl⟩ := List.mem_map.mp hk
    rw [List.mem_singleton.mp hother]
    exact fresh stored hstored
  · have hold := List.find?_some found
    have hkey : key row = key old := (beq_iff_eq.mp hold).symm
    rw [map_putRow key found hkey]
    exact distinct

/-- Where keys do not repeat, every row is the one that is found. -/
theorem find?_of_mem (distinct : (rows.map key).Nodup) (h : row ∈ rows) :
    rows.find? (key · == key row) = some row := by
  obtain ⟨before, after, split⟩ := List.append_of_mem h
  rw [List.find?_eq_some_iff_append]
  refine ⟨beq_self_eq_true (key row), before, after, split, ?_⟩
  intro other hother
  rw [split, List.map_append, List.map_cons, List.nodup_append] at distinct
  have hne := distinct.2.2 (key other) (List.mem_map_of_mem hother) (key row) List.mem_cons_self
  simpa using hne

/-- Where keys do not repeat, taking a key out leaves the keys before and behind its row. -/
theorem erase_map_filter_split {before after : List α}
    (distinct : ((before ++ old :: after).map key).Nodup) (p : α → Bool) :
    (((before ++ old :: after).filter p).map key).erase (key old)
      = (before.filter p ++ after.filter p).map key := by
  rw [List.map_append, List.map_cons, List.perm_middle.nodup_iff, List.nodup_cons,
    ← List.map_append] at distinct
  have absent : key old ∉ ((before ++ after).filter p).map key := by
    intro h
    obtain ⟨other, hother, same⟩ := List.mem_map.mp h
    refine distinct.1 ?_
    rw [← same]
    exact List.mem_map_of_mem (List.mem_filter.mp hother).1
  rw [List.filter_append, List.map_append] at absent
  rw [List.filter_append, List.filter_cons, List.map_append, List.map_append]
  by_cases h : p old = true
  · rw [if_pos h, List.map_cons,
      List.erase_append_right _ fun hmem => absent (List.mem_append_left _ hmem),
      List.erase_cons_head]
  · rw [if_neg h, List.erase_of_not_mem absent]

/-- Where keys do not repeat, what is found does not depend on how the rows stand. -/
theorem find?_eq_of_perm {shuffled : List α} (distinct : (rows.map key).Nodup)
    (same : shuffled.Perm rows) (k : κ) :
    shuffled.find? (key · == k) = rows.find? (key · == k) := by
  rcases found : rows.find? (key · == k) with _ | row
  · rw [List.find?_eq_none] at found ⊢
    intro other hother
    exact found other (same.mem_iff.mp hother)
  · have hk := List.find?_some found
    rw [beq_iff_eq] at hk
    subst hk
    have hdistinct : (shuffled.map key).Nodup := (same.map key).nodup_iff.mpr distinct
    exact find?_of_mem hdistinct (same.mem_iff.mpr (List.mem_of_find?_eq_some found))

/-! ## Tables of pairs -/

theorem lookup_eq_find? {β : Type} (k : κ) (entries : List (κ × β)) :
    entries.lookup k = (entries.find? (·.1 == k)).map (·.2) := by
  induction entries with
  | nil => rfl
  | cons entry rest ih =>
    obtain ⟨k', value⟩ := entry
    rw [List.lookup_cons, List.find?_cons, ih]
    by_cases hk : k' = k
    · subst hk
      simp
    · have hmiss : (k' == k) = false := beq_eq_false_iff_ne.mpr hk
      have hmiss' : (k == k') = false := beq_eq_false_iff_ne.mpr (Ne.symm hk)
      simp only [hmiss, hmiss']

/-- What is found under a key when a value stands in front, under another or the same one. -/
theorem lookup_cons_eq {β : Type} (k other : κ) (value : β) (entries : List (κ × β)) :
    ((k, value) :: entries).lookup other = if other = k then some value else entries.lookup other := by
  rw [List.lookup_cons]
  by_cases same : other = k
  · rw [same, beq_self_eq_true, if_pos rfl]
  · rw [beq_eq_false_iff_ne.mpr same, if_neg same]

/-- What is found under a key after a value was put under another or the same one. -/
theorem lookup_putRow {β : Type} (k other : κ) (value : β) (entries : List (κ × β)) :
    (putRow (·.1) (k, value) entries).lookup other
      = if k = other then some value else entries.lookup other := by
  rw [lookup_eq_find?, lookup_eq_find?, find?_putRow]
  by_cases hk : k = other
  · rw [if_pos hk, if_pos hk]
    rfl
  · rw [if_neg hk, if_neg hk]

/-- What is found is an entry. -/
theorem mem_of_lookup_eq_some {β : Type} {value : β} {entries : List (κ × β)}
    (h : entries.lookup k = some value) : (k, value) ∈ entries := by
  rw [lookup_eq_find?, Option.map_eq_some_iff] at h
  obtain ⟨⟨k', value'⟩, found, rfl⟩ := h
  have hk := List.find?_some found
  rw [beq_iff_eq] at hk
  subst hk
  exact List.mem_of_find?_eq_some found

/-- Where keys do not repeat, every entry is found. -/
theorem lookup_of_mem {β : Type} {value : β} {entries : List (κ × β)}
    (distinct : (entries.map (·.1)).Nodup) (h : (k, value) ∈ entries) :
    entries.lookup k = some value := by
  have found := find?_of_mem distinct h
  rw [lookup_eq_find?, found]
  rfl

end BuildServer
