import BuildServer.Json.Reader
import BuildServer.Proofs.Json.Token
/-!
# Reading back what was written

A value that was written is read back as it was, as long as it does not go deeper than a reader looks.
The reader keeps what is open on a stack, so what has to be said of a value in the middle of a text is
that reading it brings the reader to where it stands once a value is placed: in the innermost open
array or object, or as the whole. The proof goes by the structure of the value. Below an array or an
object it goes along the items or entries, each of which joins those that are there already.
-/

set_option autoImplicit false

namespace BuildServer.Json

/-- The value is as a writer has it, and does not have more arrays and objects inside one another than
there is room for. -/
inductive Written : (room : Nat) → Json → Prop
  | null (room : Nat) : Written room .null
  | bool (room : Nat) (b : Bool) : Written room (.bool b)
  | string (room : Nat) (s : String) : Written room (.string s)
  | integer (room : Nat) {n : Int} : -2 ^ 63 ≤ n → n < 2 ^ 64 → Written room (.integer n)
  | array {room : Nat} {items : List Json} : (∀ item ∈ items, Written room item) →
      Written (room + 1) (.array items)
  | object {room : Nat} {entries : List (String × Json)} : (∀ e ∈ entries, Written room e.2) →
      Written (room + 1) (.object entries)

variable {room : Nat} {j : Json}

theorem Written.mono (h : Written room j) : ∀ {more : Nat}, room ≤ more → Written more j := by
  induction h with
  | null => exact fun _ => .null _
  | bool _ b => exact fun _ => .bool _ b
  | string _ s => exact fun _ => .string _ s
  | integer _ low high => exact fun _ => .integer _ low high
  | array _ ih =>
    intro more hroom
    obtain ⟨more, rfl⟩ := Nat.exists_eq_add_of_lt hroom
    exact .array fun item hitem => ih item hitem (by omega)
  | object _ ih =>
    intro more hroom
    obtain ⟨more, rfl⟩ := Nat.exists_eq_add_of_lt hroom
    exact .object fun e he => ih e he (by omega)

theorem itemsSound_iff (items : List Json) :
    itemsSound items = true ↔ ∀ item ∈ items, item.isSound = true := by
  induction items with
  | nil => simp [itemsSound]
  | cons item items ih => simp [itemsSound, ih]

theorem entriesSound_iff (entries : List (String × Json)) :
    entriesSound entries = true ↔ ∀ e ∈ entries, e.2.isSound = true := by
  induction entries with
  | nil => simp [entriesSound]
  | cons e entries ih => simp [entriesSound, ih]

/-- Everything in a value that was written can be asked for. -/
theorem Written.isSound (h : Written room j) : j.isSound = true := by
  induction h with
  | null | bool | string | integer => rfl
  | array _ ih => exact (itemsSound_iff _).mpr ih
  | object _ ih => exact (entriesSound_iff _).mpr ih

/-! ## One value -/

/-- A value may stand here. -/
def Progress.AwaitsValue (p : Progress) : Prop := p.wait = .value ∨ p.wait = .firstItem

/-- The value is read back in the middle of a text: from wherever a value may stand, the reader comes
to where the value has been placed. -/
def ReadsBack (room : Nat) (j : Json) : Prop :=
  ∀ (p : Progress) (rest : List Char), p.AwaitsValue → p.frames.length + room ≤ depthLimit →
    EndsValue rest →
    build p (scan .between (j.write rest)) = build (.place j p.frames p.whole) (scan .between rest)

/-- A scalar is one token, so it is placed at once. -/
theorem ReadsBack.scalar (scanned : ∀ rest, EndsValue rest →
    scan .between (j.write rest) = .scalar j :: scan .between rest) : ReadsBack room j := by
  intro p rest awaits _ ends
  have step : p.step (.scalar j) = some (.place j p.frames p.whole) := by
    obtain ⟨frames, wait, whole⟩ := p
    rcases awaits with rfl | rfl <;> rfl
  rw [scanned rest ends, build, step]

/-! ## Arrays and objects -/

/-- An array that is open, where the next item or its end may come. -/
def inArray (seen : List Json) (frames : List Frame) (whole : Json) : Progress :=
  ⟨.array seen.reverse :: frames, .next, whole⟩

theorem endsValue_writeItems (items : List Json) (rest : List Char) :
    EndsValue (writeItems items (']' :: rest)) := by
  cases items with
  | nil => exact endsValue_cons (by simp) rest
  | cons => exact endsValue_cons (by simp) _

/-- An array or object that is not too deep is placed as it is when it ends. -/
theorem stepClose_eq (frame : Frame) {frames : List Frame} (wait : Wait) (whole : Json)
    (shallow : frames.length < depthLimit) :
    Progress.stepClose ⟨frame :: frames, wait, whole⟩
      = some (Progress.place frame.close frames whole) := by
  have inside : frames[depthLimit - 1]? = none := by
    rw [List.getElem?_eq_none_iff]
    unfold depthLimit at *
    omega
  simp [Progress.stepClose, inside]

/-- The items of an open array join those that are there, and the array ends. -/
theorem build_items {items : List Json} (each : ∀ item ∈ items, ReadsBack room item)
    (seen : List Json) (frames : List Frame) (deep : frames.length + 1 + room ≤ depthLimit)
    (whole : Json) (rest : List Char) :
    build (inArray seen frames whole) (scan .between (writeItems items (']' :: rest)))
      = build (Progress.place (.array (seen ++ items)) frames whole) (scan .between rest) := by
  -- `seen` grows by each item read: the frame holds them in reverse.
  induction items generalizing seen with
  | nil =>
    have closed := stepClose_eq (.array seen.reverse) .next whole
      (show frames.length < depthLimit by omega)
    have step : (inArray seen frames whole).step .closeArray
        = some (Progress.place (.array (seen ++ [])) frames whole) := by
      simpa [inArray, Progress.step, Frame.close] using closed
    have scanned : scan .between (writeItems [] (']' :: rest)) = .closeArray :: scan .between rest :=
      rfl
    rw [scanned, build, step]
  | cons item items ih =>
    rw [List.forall_mem_cons] at each
    have scanned : scan .between (writeItems (item :: items) (']' :: rest))
        = .comma :: scan .between (item.write (writeItems items (']' :: rest))) := by
      rw [writeItems]
      rfl
    have step : (inArray seen frames whole).step .comma
        = some ⟨.array seen.reverse :: frames, .value, whole⟩ := rfl
    have placed : Progress.place item (.array seen.reverse :: frames) whole
        = inArray (seen ++ [item]) frames whole := by
      simp [Progress.place, Frame.add, inArray]
    have read := each.1 ⟨.array seen.reverse :: frames, .value, whole⟩ _ (Or.inl rfl)
      (by simpa using deep) (endsValue_writeItems items rest)
    rw [scanned, build, step]
    dsimp only at read ⊢
    rw [read, placed, ih each.2, List.append_assoc, List.singleton_append]

theorem ReadsBack.array {items : List Json} (each : ∀ item ∈ items, ReadsBack room item) :
    ReadsBack (room + 1) (.array items) := by
  intro p rest awaits deep ends
  obtain ⟨frames, wait, whole⟩ := p
  dsimp only at deep ⊢
  have opened : Progress.step ⟨frames, wait, whole⟩ .openArray
      = some ⟨.array [] :: frames, .firstItem, whole⟩ := by
    rcases awaits with rfl | rfl <;> rfl
  cases items with
  | nil =>
    have scanned : scan .between (write (.array []) rest)
        = .openArray :: .closeArray :: scan .between rest := by
      rw [write]
      rfl
    have closed : Progress.step ⟨.array [] :: frames, .firstItem, whole⟩ .closeArray
        = some (.place (.array []) frames whole) :=
      stepClose_eq _ _ whole (show frames.length < depthLimit by omega)
    rw [scanned, build, opened]
    dsimp only
    rw [build, closed]
  | cons item items =>
    rw [List.forall_mem_cons] at each
    have scanned : scan .between (write (.array (item :: items)) rest)
        = .openArray :: scan .between (item.write (writeItems items (']' :: rest))) := by
      rw [write]
      rfl
    have first := each.1 ⟨.array [] :: frames, .firstItem, whole⟩ _ (Or.inr rfl)
      (by simp only [List.length_cons]; omega) (endsValue_writeItems items rest)
    have others := build_items each.2 [item] frames (by omega) whole rest
    rw [scanned, build, opened]
    exact first.trans others

/-- An object that is open, where the next entry or its end may come. -/
def inObject (seen : List (String × Json)) (frames : List Frame) (whole : Json) : Progress :=
  ⟨.object seen.reverse none :: frames, .next, whole⟩

theorem endsValue_writeEntries (entries : List (String × Json)) (rest : List Char) :
    EndsValue (writeEntries entries ('}' :: rest)) := by
  cases entries with
  | nil => exact endsValue_cons (by simp) rest
  | cons => exact endsValue_cons (by simp) _

/-- An entry joins those that are there, from wherever its key may stand. -/
theorem build_entry (key : String) {value : Json} (back : ReadsBack room value)
    (seen : List (String × Json)) (frames : List Frame) {wait : Wait}
    (hwait : wait = .firstKey ∨ wait = .key) (deep : frames.length + 1 + room ≤ depthLimit)
    (whole : Json) {rest : List Char} (ends : EndsValue rest) :
    build ⟨.object seen.reverse none :: frames, wait, whole⟩
        (scan .between (writeString key ++ ':' :: value.write rest))
      = build (inObject (seen ++ [(key, value)]) frames whole) (scan .between rest) := by
  have scanned : scan .between (writeString key ++ ':' :: value.write rest)
      = .scalar (.string key) :: .colon :: scan .between (value.write rest) := by
    rw [scan_writeString]
    rfl
  have keyed : Progress.step ⟨.object seen.reverse none :: frames, wait, whole⟩ (.scalar (.string key))
      = some ⟨.object seen.reverse (some key) :: frames, .colon, whole⟩ := by
    rcases hwait with rfl | rfl <;> rfl
  have parted : Progress.step ⟨.object seen.reverse (some key) :: frames, .colon, whole⟩ .colon
      = some ⟨.object seen.reverse (some key) :: frames, .value, whole⟩ := rfl
  have placed : Progress.place value (.object seen.reverse (some key) :: frames) whole
      = inObject (seen ++ [(key, value)]) frames whole := by
    simp [Progress.place, Frame.add, entry, inObject]
  have read := back ⟨.object seen.reverse (some key) :: frames, .value, whole⟩ rest (Or.inl rfl)
    (by simpa using deep) ends
  rw [scanned, build, keyed]
  dsimp only
  rw [build, parted]
  dsimp only at read ⊢
  rw [read, placed]

/-- The entries of an open object join those that are there, and the object ends. -/
theorem build_entries {entries : List (String × Json)}
    (each : ∀ e ∈ entries, ReadsBack room e.2) (seen : List (String × Json)) (frames : List Frame)
    (deep : frames.length + 1 + room ≤ depthLimit) (whole : Json) (rest : List Char) :
    build (inObject seen frames whole) (scan .between (writeEntries entries ('}' :: rest)))
      = build (Progress.place (.object (seen ++ entries)) frames whole) (scan .between rest) := by
  induction entries generalizing seen with
  | nil =>
    have closed := stepClose_eq (.object seen.reverse none) .next whole
      (show frames.length < depthLimit by omega)
    have step : (inObject seen frames whole).step .closeObject
        = some (Progress.place (.object (seen ++ [])) frames whole) := by
      simpa [inObject, Progress.step, Frame.close] using closed
    have scanned : scan .between (writeEntries [] ('}' :: rest)) = .closeObject :: scan .between rest :=
      rfl
    rw [scanned, build, step]
  | cons e entries ih =>
    rw [List.forall_mem_cons] at each
    have scanned : scan .between (writeEntries (e :: entries) ('}' :: rest))
        = .comma :: scan .between
            (writeString e.1 ++ ':' :: e.2.write (writeEntries entries ('}' :: rest))) := by
      rw [writeEntries]
      rfl
    have step : (inObject seen frames whole).step .comma
        = some ⟨.object seen.reverse none :: frames, .key, whole⟩ := rfl
    have read := build_entry e.1 each.1 seen frames (Or.inr rfl) deep whole
      (endsValue_writeEntries entries rest)
    rw [scanned, build, step]
    dsimp only
    rw [read, ih each.2, List.append_assoc, List.singleton_append]

theorem ReadsBack.object {entries : List (String × Json)}
    (each : ∀ e ∈ entries, ReadsBack room e.2) : ReadsBack (room + 1) (.object entries) := by
  intro p rest awaits deep ends
  obtain ⟨frames, wait, whole⟩ := p
  dsimp only at deep ⊢
  have opened : Progress.step ⟨frames, wait, whole⟩ .openObject
      = some ⟨.object [] none :: frames, .firstKey, whole⟩ := by
    rcases awaits with rfl | rfl <;> rfl
  -- The first entry has no comma before it, so it is read apart from the others.
  cases entries with
  | nil =>
    have scanned : scan .between (write (.object []) rest)
        = .openObject :: .closeObject :: scan .between rest := by
      rw [write]
      rfl
    have closed : Progress.step ⟨.object [] none :: frames, .firstKey, whole⟩ .closeObject
        = some (.place (.object []) frames whole) :=
      stepClose_eq _ _ whole (show frames.length < depthLimit by omega)
    rw [scanned, build, opened]
    dsimp only
    rw [build, closed]
  | cons e entries =>
    rw [List.forall_mem_cons] at each
    have scanned : scan .between (write (.object (e :: entries)) rest)
        = .openObject :: scan .between
            (writeString e.1 ++ ':' :: e.2.write (writeEntries entries ('}' :: rest))) := by
      rw [write]
      rfl
    have first := build_entry e.1 each.1 [] frames (Or.inl rfl) (by omega) whole
      (endsValue_writeEntries entries rest)
    have others := build_entries each.2 [e] frames (by omega) whole rest
    rw [scanned, build, opened]
    exact first.trans others

/-! ## Whole texts -/

/-- A value that was written is read back in the middle of any text. -/
theorem Written.readsBack (h : Written room j) : ReadsBack room j := by
  induction h with
  | null => exact .scalar fun rest _ => by rw [write]; rfl
  | bool _ b => exact .scalar fun rest _ => by cases b <;> rw [write] <;> rfl
  | string _ s => exact .scalar fun rest _ => by rw [write, scan_writeString]
  | integer _ low high =>
    exact .scalar fun rest ends => by rw [write, scan_writeInteger low high ends]
  | array _ ih => exact .array ih
  | object _ ih => exact .object ih

/-- A value that was written is read back from its text, and nothing follows it. -/
theorem read_toText (h : Written depthLimit j) : read j.toText = ⟨j, false⟩ := by
  have back := h.readsBack {} [] (Or.inl rfl) (Nat.le_of_eq (Nat.zero_add _)) endsValue_nil
  rw [read, toText, String.toList_ofList]
  exact back

end BuildServer.Json
