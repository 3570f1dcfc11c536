import BuildServer.Pipeline.Json
import BuildServer.Proofs.Material.Json
/-!
# Pipelines read back

Every record of a pipeline is written with all its fields, so none of the values that stand in for a
missing field is ever taken. From the inside out, each record is read back as it was: artifacts, jobs,
stages and the pipeline itself. It is far from too deep for a reader.

No record has two fields of one name, so each is also read back with its fields in any other order,
and the order of their names is one of these.
-/

set_option autoImplicit false

namespace BuildServer

open Json (Written Reordered Restores Undoes)
open Json.Attempt Json.Parts

theorem ArtifactKind.restores_ofJson : Restores ofJson toJson := by
  rintro kind _ ⟨⟩
  cases kind <;> rfl

namespace ArtifactConfig

theorem restores_ofJson : Restores ofJson toJson := by
  refine Json.restores_record (fun _ => rfl) (by decide) fun artifact parts holds => ?_
  simp only [List.forall_mem_cons] at holds
  obtain ⟨kind, src, dest, -⟩ := holds
  exact seq_ok (seq_ok (map_ok _ (required_ok ArtifactKind.restores_ofJson kind))
    (required_ok Json.restores_text src)) (defaulted_ok Json.restores_text dest)

theorem written_toJson (artifact : ArtifactConfig) : Written 1 artifact.toJson := by
  apply Written.object
  simp only [List.forall_mem_cons]
  exact ⟨.string 0 _, .string 0 _, .string 0 _, nofun⟩

theorem reordered_tabulated (artifact : ArtifactConfig) :
    Reordered artifact.toJson artifact.toJson.tabulated := by
  refine Json.reordered_tabulated_object (by simp) ?_
  simp only [List.forall_mem_cons]
  exact ⟨.same _, .same _, .same _, nofun⟩

end ArtifactConfig

namespace JobConfig

theorem restores_ofJson : Restores ofJson toJson := by
  refine Json.restores_record (fun _ => rfl) (by decide) fun job parts holds => ?_
  simp only [List.forall_mem_cons] at holds
  obtain ⟨name, resources, artifacts, -⟩ := holds
  exact seq_ok (seq_ok (map_ok _ (required_ok Json.restores_text name))
    (defaulted_ok Json.restores_text.list resources))
    (defaulted_ok ArtifactConfig.restores_ofJson.list artifacts)

theorem written_toJson (job : JobConfig) : Written 3 job.toJson := by
  apply Written.object
  simp only [List.forall_mem_cons]
  exact ⟨.string 2 _, Json.written_ofList (.string 1) _,
    Json.written_ofList ArtifactConfig.written_toJson _, nofun⟩

theorem reordered_tabulated (job : JobConfig) : Reordered job.toJson job.toJson.tabulated := by
  refine Json.reordered_tabulated_object (by simp) ?_
  simp only [List.forall_mem_cons]
  exact ⟨.same _, Json.reordered_tabulated_ofList (fun _ => .same _) _,
    Json.reordered_tabulated_ofList ArtifactConfig.reordered_tabulated _, nofun⟩

end JobConfig

namespace StageConfig

theorem restores_ofJson : Restores ofJson toJson := by
  refine Json.restores_record (fun _ => rfl) (by decide) fun stage parts holds => ?_
  simp only [List.forall_mem_cons] at holds
  obtain ⟨name, jobs, -⟩ := holds
  exact seq_ok (map_ok _ (required_ok Json.restores_text name))
    (defaulted_ok JobConfig.restores_ofJson.list jobs)

theorem written_toJson (stage : StageConfig) : Written 5 stage.toJson := by
  apply Written.object
  simp only [List.forall_mem_cons]
  exact ⟨.string 4 _, Json.written_ofList JobConfig.written_toJson _, nofun⟩

theorem reordered_tabulated (stage : StageConfig) :
    Reordered stage.toJson stage.toJson.tabulated := by
  refine Json.reordered_tabulated_object (by simp) ?_
  simp only [List.forall_mem_cons]
  exact ⟨.same _, Json.reordered_tabulated_ofList JobConfig.reordered_tabulated _, nofun⟩

end StageConfig

namespace PipelineConfig

theorem restores_ofJson : Restores ofJson toJson := by
  refine Json.restores_record (fun _ => rfl) (by decide) fun p parts holds => ?_
  simp only [List.forall_mem_cons] at holds
  obtain ⟨name, materials, stages, -⟩ := holds
  exact seq_ok (seq_ok (map_ok _ (required_ok Json.restores_text name))
    (required_ok Material.restores_ofJson.list materials))
    (defaulted_ok StageConfig.restores_ofJson.list stages)

theorem undoes_ofJson : Undoes ofJson toJson := restores_ofJson.undoes

theorem written_toJson (p : PipelineConfig) : Written 7 p.toJson := by
  have material : ∀ m : Material, Written 5 m.toJson := fun m => m.written_toJson.mono (by omega)
  apply Written.object
  simp only [List.forall_mem_cons]
  exact ⟨.string 6 _, Json.written_ofList material _,
    Json.written_ofList StageConfig.written_toJson _, nofun⟩

theorem reordered_tabulated (p : PipelineConfig) : Reordered p.toJson p.toJson.tabulated := by
  refine Json.reordered_tabulated_object (by simp) ?_
  simp only [List.forall_mem_cons]
  exact ⟨.same _, Json.reordered_tabulated_ofList Material.reordered_tabulated _,
    Json.reordered_tabulated_ofList StageConfig.reordered_tabulated _, nofun⟩

/-- A pipeline is read back from its text, and nothing follows it. -/
theorem read_toText (p : PipelineConfig) : Json.read p.toJson.toText = ⟨p.toJson, false⟩ :=
  Json.read_toText (p.written_toJson.mono (by decide))

end PipelineConfig

end BuildServer
