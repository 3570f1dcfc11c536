import BuildServer.Material.Json
import BuildServer.Proofs.Json.Decode
/-!
# Materials read back

A material is one flat object, with its kind under a name that none of its other entries has. So
reading it takes the kind out, wherever it stands, and leaves the other entries as they were, and
those are the fields of the kind, each written and read in the same way. The checkout options have
their fields among those of the material and are found there by their names.
-/

set_option autoImplicit false

namespace BuildServer

open Json (Written Reordered Rearranges Restores)

/-- A URL is written as the text it was configured with. -/
theorem RepositoryUrl.restores_readUrl :
    Restores Material.readUrl fun url : RepositoryUrl => .string url.configured := by
  rintro url _ ⟨⟩
  rfl

namespace Filter

theorem toJson_eq (f : Filter) : f.toJson = Json.ofList .string (f.patterns.map (·.text)) := by
  rw [toJson, Json.ofList, Json.ofList, List.map_map]
  rfl

/-- The patterns are those of the texts. -/
theorem ofTexts_map_text (f : Filter) : ofTexts (f.patterns.map (·.text)) = f := by
  have each : PathPattern.ofText ∘ (·.text) = id := funext fun _ => PathPattern.ext_text rfl
  rw [ofTexts, List.map_map, each, List.map_id]

/-- A filter is written as texts, and its patterns are made of them again. -/
theorem restores_ofJson : Restores ofJson toJson := by
  intro f j reordered
  rw [toJson_eq] at reordered
  have texts := Json.restores_text.list _ j reordered
  rw [ofJson, texts, Except.map, ofTexts_map_text]

theorem written_toJson (f : Filter) : Written 1 f.toJson := by
  have each : ∀ p : PathPattern, Written 0 (.string p.text) := fun p => .string 0 p.text
  exact Json.written_ofList each f.patterns

theorem reordered_tabulated (f : Filter) : Reordered f.toJson f.toJson.tabulated :=
  Json.reordered_tabulated_ofList (fun _ => .same _) f.patterns

end Filter

namespace CheckoutOptions

theorem written_entries (options : CheckoutOptions) : ∀ e ∈ options.entries, Written 1 e.2 := by
  simp only [entries, List.forall_mem_cons]
  exact ⟨Json.written_ofOption_string 1 _, options.filter.written_toJson, .bool 1 _, nofun⟩

theorem reordered_tabulated (options : CheckoutOptions) :
    ∀ e ∈ options.entries, Reordered e.2 e.2.tabulated := by
  have option := Json.reordered_tabulated_ofOption fun s : String => .same (.string s)
  simp only [entries, List.forall_mem_cons]
  exact ⟨option _, options.filter.reordered_tabulated, .same _, nofun⟩

end CheckoutOptions

namespace Material

theorem written_entries (m : Material) : ∀ e ∈ m.entries, Written 1 e.2 := by
  cases m with
  | git source options =>
    simp only [entries, List.forall_mem_cons]
    exact ⟨.string 1 _, .string 1 _, Json.written_ofOption_string 1 _,
      Json.written_ofOption_string 1 _, .bool 1 _, options.written_entries⟩
  | hg source options =>
    simp only [entries, List.forall_mem_cons]
    exact ⟨.string 1 _, .string 1 _, Json.written_ofOption_string 1 _, options.written_entries⟩
  | svn source options =>
    simp only [entries, List.forall_mem_cons]
    exact ⟨.string 1 _, .string 1 _, Json.written_ofOption_string 1 _, .bool 1 _,
      options.written_entries⟩
  | p4 source options =>
    simp only [entries, List.forall_mem_cons]
    exact ⟨.string 1 _, .string 1 _, Json.written_ofOption_string 1 _, .string 1 _,
      options.written_entries⟩
  | dependency d =>
    simp only [entries, List.forall_mem_cons]
    exact ⟨.string 1 _, .string 1 _, .string 1 _, nofun⟩

theorem written_toJson (m : Material) : Written 2 m.toJson := .object m.written_entries

theorem nodup_names (m : Material) : (m.entries.map (·.1)).Nodup := by
  cases m <;> simp [entries, CheckoutOptions.entries]

theorem reordered_tabulated (m : Material) : Reordered m.toJson m.toJson.tabulated := by
  have option := Json.reordered_tabulated_ofOption fun s : String => .same (.string s)
  refine Json.reordered_tabulated_object m.nodup_names ?_
  cases m with
  | git source options =>
    simp only [entries, List.forall_mem_cons]
    exact ⟨.same _, .same _, option _, option _, .same _, options.reordered_tabulated⟩
  | hg source options =>
    simp only [entries, List.forall_mem_cons]
    exact ⟨.same _, .same _, option _, options.reordered_tabulated⟩
  | svn source options =>
    simp only [entries, List.forall_mem_cons]
    exact ⟨.same _, .same _, option _, .same _, options.reordered_tabulated⟩
  | p4 source options =>
    simp only [entries, List.forall_mem_cons]
    exact ⟨.same _, .same _, option _, .same _, options.reordered_tabulated⟩
  | dependency d =>
    simp only [entries, List.forall_mem_cons]
    exact ⟨.same _, .same _, .same _, nofun⟩

/-! ## The kind among the entries -/

/-- Sound entries under other names are passed over and kept. -/
theorem splitTag_append (found : Option MaterialKind) (kept : List (String × Json))
    {front : List (String × Json)} (names : ∀ e ∈ front, e.1 ≠ "type")
    (sound : ∀ e ∈ front, e.2.isSound = true) (rest : List (String × Json)) :
    splitTag found kept (front ++ rest) = splitTag found (front.reverse ++ kept) rest := by
  induction front generalizing kept with
  | nil => rfl
  | cons e front ih =>
    rw [List.forall_mem_cons] at names sound
    rw [List.cons_append, splitTag, if_neg names.1, if_pos sound.1, ih _ names.2 sound.2,
      List.reverse_cons, List.append_assoc, List.singleton_append]

/-- The kind is taken out from wherever it stands among the other entries. -/
theorem splitTag_among {tag : String} {kind : MaterialKind} {before after : List (String × Json)}
    (tagged : MaterialKind.ofTag? tag = some kind) (names : ∀ e ∈ before ++ after, e.1 ≠ "type")
    (sound : ∀ e ∈ before ++ after, e.2.isSound = true) :
    splitTag none [] (before ++ ("type", .string tag) :: after) = .ok (kind, before ++ after) := by
  rw [List.forall_mem_append] at names sound
  have taken : splitTag none before.reverse (("type", .string tag) :: after)
      = splitTag (some kind) before.reverse after := by
    simp [splitTag, Json.parsed, Json.text, tagged]
  have passed : splitTag (some kind) before.reverse after = .ok (kind, before ++ after) := by
    have behind := splitTag_append (some kind) before.reverse names.2 sound.2 []
    simpa [splitTag] using behind
  rw [splitTag_append none [] names.1 sound.1, List.append_nil, taken, passed]

/-- A material is read as its kind says from the other entries, in whatever order they come. -/
theorem ofJson_tagged {tag : String} {kind : MaterialKind} {entries others : List (String × Json)}
    {m : Material} (tagged : MaterialKind.ofTag? tag = some kind)
    (fresh : "type" ∉ entries.map (·.1))
    (rearranges : Rearranges (("type", .string tag) :: entries) others)
    (sound : ∀ e ∈ others, e.2.isSound = true)
    (read : ∀ rest, Rearranges entries rest → readKind kind (.object rest) = .ok m) :
    ofJson (.object others) = .ok m := by
  obtain ⟨k, found, reordered⟩ := rearranges.values _ List.mem_cons_self
  cases reordered
  obtain ⟨before, after, rfl⟩ := List.append_of_mem found
  have rest : Rearranges entries (before ++ after) := rearranges.erase fresh
  have names : ∀ e ∈ before ++ after, e.1 ≠ "type" := by
    rintro e he same
    exact fresh (same ▸ rest.names.mem_iff.mp (List.mem_map_of_mem he))
  have split := splitTag_among tagged names fun e he =>
    sound e (List.perm_middle.mem_iff.mpr (List.mem_cons_of_mem _ he))
  simp only [ofJson, split, read _ rest]
  rfl

/-! ## The kinds -/

section Kinds

open Json.Attempt Json.Parts

variable {others : List (String × Json)}

/-- The checkout options are read wherever their fields are found. -/
theorem readOptions_ok {parts : Json.Parts} {options : CheckoutOptions}
    (holds : ∀ e ∈ options.entries, parts.Holds e.1 e.2) : readOptions parts = pure options := by
  simp only [CheckoutOptions.entries, List.forall_mem_cons] at holds
  obtain ⟨folder, filter, inverted, -⟩ := holds
  exact seq_ok (seq_ok (map_ok _ (defaulted_ok Json.restores_nullable_text folder))
    (defaulted_ok Filter.restores_ofJson filter)) (defaulted_ok Json.restores_flag inverted)

theorem readGit_ok {source : GitSource} {options : CheckoutOptions}
    (h : Rearranges (git source options).entries.tail others) :
    readGit (.object others) = .ok (git source options) := by
  refine Json.record_ok h rfl (by decide) fun parts holds => ?_
  simp only [entries, List.tail_cons, List.forall_mem_cons] at holds
  obtain ⟨url, branch, submodules, shallow, optionsHold⟩ := holds
  refine seq_ok (map_ok _ ?_) (readOptions_ok optionsHold)
  exact seq_ok (seq_ok (seq_ok (map_ok _ (required_ok RepositoryUrl.restores_readUrl url))
    (defaulted_ok Json.restores_nullable_text branch))
    (defaulted_ok Json.restores_nullable_text submodules))
    (defaulted_ok Json.restores_flag shallow)

theorem readHg_ok {source : HgSource} {options : CheckoutOptions}
    (h : Rearranges (hg source options).entries.tail others) :
    readHg (.object others) = .ok (hg source options) := by
  refine Json.record_ok h rfl (by decide) fun parts holds => ?_
  simp only [entries, List.tail_cons, List.forall_mem_cons] at holds
  obtain ⟨url, branch, optionsHold⟩ := holds
  refine seq_ok (map_ok _ ?_) (readOptions_ok optionsHold)
  exact seq_ok (map_ok _ (required_ok RepositoryUrl.restores_readUrl url))
    (defaulted_ok Json.restores_nullable_text branch)

theorem readSvn_ok {source : SvnSource} {options : CheckoutOptions}
    (h : Rearranges (svn source options).entries.tail others) :
    readSvn (.object others) = .ok (svn source options) := by
  refine Json.record_ok h rfl (by decide) fun parts holds => ?_
  simp only [entries, List.tail_cons, List.forall_mem_cons] at holds
  obtain ⟨url, username, externals, optionsHold⟩ := holds
  refine seq_ok (map_ok _ ?_) (readOptions_ok optionsHold)
  exact seq_ok (seq_ok (map_ok _ (required_ok RepositoryUrl.restores_readUrl url))
    (defaulted_ok Json.restores_nullable_text username)) (defaulted_ok Json.restores_flag externals)

theorem readP4_ok {source : P4Source} {options : CheckoutOptions}
    (h : Rearranges (p4 source options).entries.tail others) :
    readP4 (.object others) = .ok (p4 source options) := by
  refine Json.record_ok h rfl (by decide) fun parts holds => ?_
  simp only [entries, List.tail_cons, List.forall_mem_cons] at holds
  obtain ⟨server, username, view, optionsHold⟩ := holds
  refine seq_ok (map_ok _ ?_) (readOptions_ok optionsHold)
  exact seq_ok (seq_ok (map_ok _ (required_ok Json.restores_text server))
    (defaulted_ok Json.restores_nullable_text username)) (required_ok Json.restores_text view)

theorem readDependency_ok {d : Dependency} (h : Rearranges (dependency d).entries.tail others) :
    readDependency (.object others) = .ok (dependency d) := by
  refine Json.record_ok h rfl (by decide) fun parts holds => ?_
  simp only [entries, List.tail_cons, List.forall_mem_cons] at holds
  obtain ⟨pipelineName, stageName, -⟩ := holds
  refine map_ok _ ?_
  exact seq_ok (map_ok _ (required_ok Json.restores_text pipelineName))
    (required_ok Json.restores_text stageName)

end Kinds

/-- A material is read back as it was. -/
theorem restores_ofJson : Restores ofJson toJson := by
  intro m j reordered
  have written := m.written_toJson.reordered reordered
  obtain ⟨others, rfl, rearranges⟩ := reordered.exists_entries
  have sound := (Json.entriesSound_iff _).mp written.isSound
  have fresh : "type" ∉ m.entries.tail.map (·.1) := by
    have distinct := m.nodup_names
    cases m <;> exact (List.nodup_cons.mp distinct).1
  cases m with
  | git source options => exact ofJson_tagged rfl fresh rearranges sound fun _ => readGit_ok
  | hg source options => exact ofJson_tagged rfl fresh rearranges sound fun _ => readHg_ok
  | svn source options => exact ofJson_tagged rfl fresh rearranges sound fun _ => readSvn_ok
  | p4 source options => exact ofJson_tagged rfl fresh rearranges sound fun _ => readP4_ok
  | dependency d => exact ofJson_tagged rfl fresh rearranges sound fun _ => readDependency_ok

end Material

end BuildServer
