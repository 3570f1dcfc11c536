import BuildServer.Json.Decode
import BuildServer.Proofs.Json.Reordered
import Mathlib.Data.List.Nodup
/-!
# Reading what an encoder wrote

A decoder undoes an encoder if it gives every value back, and it restores the values of the encoder
if it does so whatever order the entries of objects come in. For lists and options this follows from
their elements, and for a record from its fields: each is found under its name and read back, and
the names, of which none is there twice, are those of the record.

Where a field stands among the entries decides only which of several failures counts. So the place
is left open in what is said of a field, and the entries of an object are asked for by name alone.
-/

set_option autoImplicit false

namespace BuildServer.Json

variable {α β : Type} {decode : Decoder α} {encode : α → Json}

/-- The decoder reads back what the encoder writes. -/
def Undoes (decode : Decoder α) (encode : α → Json) : Prop := ∀ a, decode (encode a) = .ok a

/-- The decoder reads back what the encoder writes, in whatever order the entries come. -/
def Restores (decode : Decoder α) (encode : α → Json) : Prop :=
  ∀ (a : α) (j : Json), Reordered (encode a) j → decode j = .ok a

theorem Restores.undoes (h : Restores decode encode) : Undoes decode encode := fun a =>
  h a (encode a) (.same _)

/-! ## Scalars, options and lists -/

theorem restores_text : Restores text .string := by
  rintro s _ ⟨⟩
  rfl

theorem restores_flag : Restores flag .bool := by
  rintro b _ ⟨⟩
  rfl

theorem restores_word64 : Restores word64 fun n => .integer n.toNat := by
  rintro n _ ⟨⟩
  have bounded : (0 : Int) ≤ n.toNat ∧ (n.toNat : Int) ≤ (Nat.pow 2 64 : Nat) - 1 := by
    have below : n.toNat < Nat.pow 2 64 := n.toNat_lt
    omega
  have whole : UInt64.ofNat n.toNat = n := UInt64.ofNat_toNat
  simp only [word64, natBelow, integerIn, if_pos bounded, Except.map, Int.toNat_natCast, whole]

/-- A value that is not written as null may be absent. -/
theorem Restores.nullable (h : Restores decode encode) (notNull : ∀ a, encode a ≠ .null) :
    Restores (nullable decode) (ofOption encode) := by
  rintro (_ | a) j reordered
  · cases reordered
    rfl
  · have present : j ≠ .null := by
      rintro rfl
      exact notNull a reordered.of_null
    have decoded : Json.nullable decode j = (decode j).map some := by
      rw [Json.nullable]
      exact present
    rw [decoded, h a j reordered]
    rfl

theorem restores_nullable_text : Restores (nullable text) (ofOption .string) :=
  restores_text.nullable fun _ => nofun

theorem mapM_ok {as : List α} {items : List Json}
    (each : List.Forall₂ (fun a item => decode item = .ok a) as items) :
    items.mapM decode = .ok as := by
  induction each with
  | nil => rfl
  | cons first _ ih =>
    rw [List.mapM_cons, first, ih]
    rfl

/-- A list is read back item by item. -/
theorem Restores.list (h : Restores decode encode) : Restores (listOf decode) (ofList encode) := by
  intro as j reordered
  obtain ⟨items, rfl, each⟩ := reordered.exists_items
  rw [List.forall₂_map_left_iff] at each
  exact mapM_ok (each.imp h)

theorem written_word64 (room : Nat) (n : UInt64) : Written room (.integer n.toNat) := by
  have below : n.toNat < 2 ^ 64 := n.toNat_lt
  exact .integer room (by omega) (by omega)

theorem written_ofOption {room : Nat} (h : ∀ a, Written room (encode a)) (o : Option α) :
    Written room (ofOption encode o) := by
  cases o with
  | none => exact .null room
  | some a => exact h a

theorem written_ofOption_string (room : Nat) (o : Option String) :
    Written room (ofOption .string o) := written_ofOption (.string room) o

theorem written_ofList {room : Nat} (h : ∀ a, Written room (encode a)) (as : List α) :
    Written (room + 1) (ofList encode as) := by
  apply Written.array
  intro item hitem
  obtain ⟨a, _, rfl⟩ := List.mem_map.mp hitem
  exact h a

/-! ## Fields -/

namespace Attempt

theorem map_ok {x : Attempt α} {a : α} (f : α → β) (hx : x = pure a) : f <$> x = pure (f a) := by
  rw [hx]
  rfl

theorem seq_ok {f : Attempt (α → β)} {x : Attempt α} {g : α → β} {a : α} (hf : f = pure g)
    (hx : x = pure a) : f <*> x = pure (g a) := by
  rw [hf, hx]
  rfl

end Attempt

namespace Parts

variable {parts : Parts} {place : Nat} {name : String} {j : Json} {a : α}

/-- The field is found under its name, with its own entries in some order. -/
def Holds (parts : Parts) (name : String) (j : Json) : Prop :=
  ∃ k, Reordered j k ∧ ∀ place, ∃ i, parts.find? place name = some (i, k)

/-- A field that is there is read, whatever would be taken for it otherwise. -/
theorem fieldOr_ok {absent : Attempt α} (field : parts.Holds name j)
    (read : ∀ k, Reordered j k → decode k = .ok a) :
    parts.fieldOr place name decode absent = pure a := by
  obtain ⟨k, reordered, found⟩ := field
  obtain ⟨i, found⟩ := found place
  rw [fieldOr, found]
  dsimp only
  rw [read k reordered]
  rfl

theorem required_ok (restores : Restores decode encode) (field : parts.Holds name (encode a)) :
    parts.required place name decode = pure a := fieldOr_ok field (restores a)

theorem defaulted_ok {value : α} (restores : Restores decode encode)
    (field : parts.Holds name (encode a)) : parts.defaulted place name decode value = pure a :=
  fieldOr_ok field (restores a)

theorem optional_ok {o : Option α} (restores : Restores (nullable decode) (ofOption encode))
    (field : parts.Holds name (ofOption encode o)) : parts.optional place name decode = pure o :=
  fieldOr_ok field (restores o)

/-- With no name twice, an entry is found from its name. -/
theorem exists_find? {entries : List (String × Json)} (distinct : (entries.map (·.1)).Nodup)
    (entry : (name, j) ∈ entries) (place : Nat) :
    ∃ i, (Parts.entries entries).find? place name = some (i, j) := by
  rcases found : entries.findIdx? (·.1 == name) with _ | i
  · rw [List.findIdx?_eq_none_iff] at found
    have named : ((name, j).1 == name) = true := beq_self_eq_true name
    rw [found _ entry] at named
    cases named
  · obtain ⟨inside, named, -⟩ := List.findIdx?_eq_some_iff_getElem.mp found
    have same : entries[i] = (name, j) :=
      List.inj_on_of_nodup_map distinct (List.getElem_mem inside) entry (beq_iff_eq.mp named)
    refine ⟨i, ?_⟩
    rw [Parts.find?]
    simp only [found, List.getElem?_eq_getElem inside, same, Option.map_some]

/-- Nothing is wrong with entries that all belong to the record, if none is there twice. -/
theorem entriesFault?_eq_none {known : List String} {entries : List (String × Json)}
    (distinct : (entries.map (·.1)).Nodup) (own : ∀ e ∈ entries, e.1 ∈ known) (place : Nat)
    {seen : List String} (fresh : ∀ e ∈ entries, e.1 ∉ seen) :
    entriesFault? known place seen entries = none := by
  induction entries generalizing place seen with
  | nil => rfl
  | cons e entries ih =>
    rw [List.map_cons, List.nodup_cons] at distinct
    rw [List.forall_mem_cons] at own fresh
    have others : ∀ e' ∈ entries, e'.1 ∉ e.1 :: seen := by
      intro e' he'
      rw [List.mem_cons, not_or]
      exact ⟨fun same => distinct.1 (same ▸ List.mem_map_of_mem he'), fresh.2 e' he'⟩
    rw [entriesFault?, if_pos (List.contains_iff_mem.mpr own.1),
      if_neg (mt List.contains_iff_mem.mp fresh.1)]
    exact ih distinct.2 own.2 (place + 1) others

end Parts

/-! ## Records -/

section Records

variable {known : List String} {fields : Parts → Attempt α} {entries others : List (String × Json)}

theorem Rearranges.holds (h : Rearranges entries others) (distinct : (entries.map (·.1)).Nodup) :
    ∀ e ∈ entries, (Parts.entries others).Holds e.1 e.2 := by
  intro e he
  obtain ⟨k, found, reordered⟩ := h.values e he
  exact ⟨k, reordered, Parts.exists_find? (h.names.nodup_iff.mpr distinct) found⟩

/-- A record is read if its entries are its fields, and each of these is read where it is found. -/
theorem record_ok {a : α} (h : Rearranges entries others) (names : entries.map (·.1) = known)
    (distinct : known.Nodup)
    (read : ∀ parts : Parts, (∀ e ∈ entries, parts.Holds e.1 e.2) → fields parts = pure a) :
    record known fields (.object others) = .ok a := by
  have apart : (others.map (·.1)).Nodup := by
    rw [h.names.nodup_iff, names]
    exact distinct
  have own : ∀ e ∈ others, e.1 ∈ known := by
    intro e he
    rw [← names, ← h.names.mem_iff]
    exact List.mem_map_of_mem he
  have complete : (Parts.entries others).wellShaped known = pure () := by
    rw [Parts.wellShaped, Parts.entriesFault?_eq_none apart own 0 fun _ _ => List.not_mem_nil]
  rw [record]
  dsimp only
  rw [read _ (h.holds (names ▸ distinct)), complete]
  rfl

/-- A record that is written with all its fields is restored. -/
theorem restores_record {write : α → List (String × Json)}
    (names : ∀ a, (write a).map (·.1) = known) (distinct : known.Nodup)
    (read : ∀ (a : α) (parts : Parts), (∀ e ∈ write a, parts.Holds e.1 e.2) →
      fields parts = pure a) :
    Restores (record known fields) fun a => .object (write a) := by
  intro a j reordered
  obtain ⟨others, rfl, rearranges⟩ := reordered.exists_entries
  exact record_ok rearranges (names a) distinct (read a)

end Records

end BuildServer.Json
