import Replay.Proofs.StepReading
import Replay.Proofs.Trim

namespace Replay

namespace Script

variable {viewport : Viewport} {limits : Limits}

/-- A pointer event that was read is written with all its members in the form that is read. -/
theorem PointerForm.payload {members : Members Json} {step : PointerStep}
    (h : PointerForm viewport members step) :
    ∃ fields, step.payload = .object fields ∧ PointerForm viewport fields step := by
  refine ⟨_, rfl, ?_⟩
  exact ⟨rfl, ⟨.int step.pointer, rfl, rfl⟩, h.int64, rfl, h.xFinite, rfl, h.yFinite, rfl, rfl,
    h.xInside, h.yInside⟩

theorem StepForm.payload {value : Json} {step : Step} (h : StepForm viewport value step) :
    StepForm viewport step.payload step := by
  cases h with
  | run _ _ _ _ hpos => exact .run rfl rfl rfl rfl hpos
  | input _ _ _ hf =>
    obtain ⟨fields, hp, hfields⟩ := hf.payload
    rw [Step.payload, hp]
    exact .input rfl rfl rfl hfields
  | @snap members t _ _ _ ht =>
    have hsnap : StepForm viewport (Step.snap t.trim).payload (.snap t.trim.trim) :=
      .snap rfl rfl rfl (by rwa [Text.trim_trim])
    rwa [Text.trim_trim] at hsnap

/-- A script that was read is read again from its payload. -/
theorem read_payload_of_read {value : Json} {script : Script}
    (h : read viewport limits value = .ok script) :
    read viewport limits script.payload = .ok script := by
  obtain ⟨_, values, _, _, _, hpos, hmax, hforms, hall⟩ := read_eq_ok_iff.mp h
  have hlength := hforms.length_eq
  refine read_eq_ok_iff.mpr ⟨_, script.steps.map Step.payload, rfl, by simp, rfl, ?_, ?_, ?_, hall⟩
  · rw [List.length_map]
    omega
  · rw [List.length_map]
    omega
  · rw [List.forall₂_map_left_iff, List.forall₂_same]
    intro step hmem
    obtain ⟨_, _, hform⟩ := exists_of_mem_right hforms hmem
    exact hform.payload

/-- Handing on and reading are inverse to each other: a script that was read is read again from its
payload, step for step, and the scripts that can be read at all are those read from their
payload. -/
theorem read_payload (viewport : Viewport) (limits : Limits) :
    (∀ value script, read viewport limits value = .ok script →
      read viewport limits script.payload = .ok script) ∧
    ∀ script : Script, (∃ value, read viewport limits value = .ok script) ↔
      read viewport limits script.payload = .ok script := by
  refine ⟨fun value script h => read_payload_of_read h, fun script => ⟨?_, fun h => ⟨_, h⟩⟩⟩
  rintro ⟨value, h⟩
  exact read_payload_of_read h

end Script

end Replay
