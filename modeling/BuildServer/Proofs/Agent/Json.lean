import BuildServer.Agent.Basic
import BuildServer.Proofs.Json.Decode
/-!
# Snapshots read back

A snapshot of an agent is written with all its fields, absent values as null, so that none of them
counts as missing when it is read. The space that is free at the location may be any number of 64
bits; it is the one number in the record, and such a number is within what a reader takes for an
integer.
-/

set_option autoImplicit false

namespace BuildServer

open Json (Written Reordered Restores)
open Json.Attempt Json.Parts

namespace AgentIdentifier

theorem restores_ofJson : Restores ofJson toJson := by
  refine Json.restores_record (fun _ => rfl) (by decide) fun id parts holds => ?_
  simp only [List.forall_mem_cons] at holds
  obtain ⟨hostname, ipAddress, uuid, -⟩ := holds
  exact seq_ok (seq_ok (map_ok _ (required_ok Json.restores_text hostname))
    (required_ok Json.restores_text ipAddress)) (required_ok Json.restores_text uuid)

theorem written_toJson (id : AgentIdentifier) : Written 1 id.toJson := by
  apply Written.object
  simp only [List.forall_mem_cons]
  exact ⟨.string 0 _, .string 0 _, .string 0 _, nofun⟩

theorem reordered_tabulated (id : AgentIdentifier) : Reordered id.toJson id.toJson.tabulated := by
  refine Json.reordered_tabulated_object (by simp) ?_
  simp only [List.forall_mem_cons]
  exact ⟨.same _, .same _, .same _, nofun⟩

end AgentIdentifier

theorem AgentStatus.restores_ofJson : Restores ofJson toJson := by
  rintro status _ ⟨⟩
  cases status <;> rfl

namespace BuildingInfo

theorem restores_ofJson : Restores ofJson toJson := by
  refine Json.restores_record (fun _ => rfl) (by decide) fun info parts holds => ?_
  simp only [List.forall_mem_cons] at holds
  obtain ⟨buildInfo, buildLocator, -⟩ := holds
  exact seq_ok (map_ok _ (required_ok Json.restores_text buildInfo))
    (required_ok Json.restores_text buildLocator)

theorem written_toJson (info : BuildingInfo) : Written 1 info.toJson := by
  apply Written.object
  simp only [List.forall_mem_cons]
  exact ⟨.string 0 _, .string 0 _, nofun⟩

theorem reordered_tabulated (info : BuildingInfo) :
    Reordered info.toJson info.toJson.tabulated := by
  refine Json.reordered_tabulated_object (by simp) ?_
  simp only [List.forall_mem_cons]
  exact ⟨.same _, .same _, nofun⟩

end BuildingInfo

namespace AgentInfo

theorem restores_ofJson : Restores ofJson toJson := by
  refine Json.restores_record (fun _ => rfl) (by decide) fun info parts holds => ?_
  simp only [List.forall_mem_cons] at holds
  obtain ⟨identifier, status, buildingInfo, location, space, system, cookie, version, bootstrapper,
    -⟩ := holds
  have restoresSpace := Json.restores_word64.nullable fun _ => nofun
  exact seq_ok (seq_ok (seq_ok (seq_ok (seq_ok (seq_ok (seq_ok (seq_ok (map_ok _
    (required_ok AgentIdentifier.restores_ofJson identifier))
    (required_ok AgentStatus.restores_ofJson status))
    (defaulted_ok BuildingInfo.restores_ofJson buildingInfo))
    (required_ok Json.restores_text location))
    (optional_ok restoresSpace space))
    (optional_ok Json.restores_nullable_text system))
    (optional_ok Json.restores_nullable_text cookie))
    (defaulted_ok Json.restores_nullable_text version))
    (defaulted_ok Json.restores_nullable_text bootstrapper)

theorem written_toJson (info : AgentInfo) : Written 2 info.toJson := by
  have option := Json.written_ofOption_string 1
  have space := Json.written_ofOption (Json.written_word64 1) info.usableSpace
  apply Written.object
  simp only [List.forall_mem_cons]
  exact ⟨info.identifier.written_toJson, .string 1 _, info.buildingInfo.written_toJson, .string 1 _,
    space, option _, option _, option _, option _, nofun⟩

theorem reordered_tabulated (info : AgentInfo) : Reordered info.toJson info.toJson.tabulated := by
  have option := Json.reordered_tabulated_ofOption fun s : String => .same (.string s)
  have space := Json.reordered_tabulated_ofOption (fun n : UInt64 => .same (.integer n.toNat))
    info.usableSpace
  refine Json.reordered_tabulated_object (by simp) ?_
  simp only [List.forall_mem_cons]
  exact ⟨info.identifier.reordered_tabulated, .same _, info.buildingInfo.reordered_tabulated,
    .same _, space, option _, option _, option _, option _, nofun⟩

end AgentInfo

end BuildServer
