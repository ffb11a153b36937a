import Bucketing.Command.Basic
import Bucketing.Proofs.Outcome

/-! # What a command writes

A command writes one line, as its last step. An output is therefore extended by the whole answer or,
where there is a fault, left as it was.
-/
namespace Bucketing

/-- The steps write what is answered, as a line, and nothing where there is a fault. -/
def Writing.Writes (steps : Writing Unit) (answer : Except Fault String) : Prop :=
  ∀ output, steps.run output =
    match answer with
    | .ok line => .ok () (output ++ (line ++ "\n"))
    | .error fault => .error fault output

namespace Writing.Writes

theorem line (line : String) : Writes (writeLine line) (.ok line) := fun _ => rfl

/-- A step before the answer. -/
theorem bind {α : Type} {x : Except Fault α} {steps : α → Writing Unit}
    {answer : α → Except Fault String} (h : ∀ a, Writes (steps a) (answer a)) :
    Writes (liftM x >>= steps) (x >>= answer) := by
  intro output
  cases x with
  | error fault => rfl
  | ok a => exact h a output

end Writing.Writes

namespace Command

variable {command : Command} {output : String}

open Writing in
theorem writes_execute (command : Command) : Writes command.execute command.answer := by
  cases command with
  | hash type value => exact .bind fun v => .bind fun n => .line _
  | bucket count type value =>
    refine .bind fun b => .bind fun a => .bind fun v => .bind fun bucket => ?_
    cases bucket with
    | some number => exact .line _
    | none => exact .line _
  | project count direction partitionName type column op values =>
    refine .bind fun b => .bind fun p => .bind fun projected => ?_
    cases projected with
    | some q => exact .line _
    | none => exact .line _

theorem run_execute (command : Command) (output : String) :
    command.execute.run output =
      match command.run with
      | .ok text => .ok () (output ++ text)
      | .error fault => .error fault output := by
  rw [writes_execute, run]
  cases command.answer <;> rfl

theorem exists_run_execute_iff :
    (∃ written, command.execute.run output = .ok () written) ↔ ∃ text, command.run = .ok text := by
  rw [run_execute]
  cases command.run with
  | ok text => exact ⟨fun _ => ⟨text, rfl⟩, fun _ => ⟨_, rfl⟩⟩
  | error fault => exact ⟨nofun, nofun⟩

theorem eq_of_run_execute_eq_error {fault : Fault} {written : String}
    (h : command.execute.run output = .error fault written) : written = output := by
  rw [run_execute] at h
  cases hRun : command.run with
  | ok text =>
    rw [hRun] at h
    cases h
  | error cause =>
    rw [hRun] at h
    cases h
    rfl

end Command

end Bucketing
