import Barycenter.Dp.AgentSlots
import Barycenter.Dp.Driver

/-!
# Rules for programs over the data plane

The rules of the program logic at the operations, the effects and the pure
checks of the data plane.
-/

namespace Barycenter.Dp

open Prog

variable {W α : Type} {C : Contract dataplane W}
  {post : Except Thrown α → AgentState → W → Prop} {state : AgentState} {world : W}

theorem obeys_judge_then {β : Type} {verdict : Except DpRejection β} {rest : β → Program α}
    (passed : ∀ value, verdict = .ok value → (rest value).Obeys C post state world)
    (refused : ∀ rejection, verdict = .error rejection →
      post (.error (.rejection rejection)) state world) :
    (Program.judge verdict >>= rest).Obeys C post state world := by
  cases verdict with
  | ok value => exact passed value rfl
  | error rejection => exact refused rejection rfl

variable {o : AgentOp}

theorem obeys_durably_then {rest : o.Reply → Program α} (obeys : ∀ current, C.rely state current →
      C.issued o current ∧
        (∀ reply written, serial o current = .ok (reply, written) →
          (rest reply).Obeys C post written world) ∧
        (∀ thrown, serial o current = .error thrown →
          post (.error thrown) current world)) : (durably o >>= rest).Obeys C post state world :=
  Obeys.perform_then obeys

theorem obeys_durably {post : Except Thrown o.Reply → AgentState → W → Prop}
    (obeys : ∀ current, C.rely state current →
      C.issued o current ∧
        (∀ reply written, serial o current = .ok (reply, written) →
          post (.ok reply) written world) ∧
        (∀ thrown, serial o current = .error thrown →
          post (.error thrown) current world)) : (durably o).Obeys C post state world :=
  obeys

theorem exec_durably (E : Environment dataplane W) (o : AgentOp) :
    ((durably o).exec E state world).result = (serial o state).map Prod.fst ∧
      ((durably o).exec E state world).state =
        match serial o state with
        | .ok (_, written) => written
        | .error _ => state := by
  change (Prog.exec E (Prog.act o Prog.done) state world).result = _ ∧
    (Prog.exec E (Prog.act o Prog.done) state world).state = _
  simp only [Prog.exec]
  cases serial o state <;> exact ⟨rfl, rfl⟩

theorem exec_durably_refused (E : Environment dataplane W) {rest : o.Reply → Program α}
    {thrown : Thrown} (refused : serial o state = .error thrown) :
    (durably o >>= rest).exec E state world =
      { result := .error thrown
        state := state
        world := world
        requests := []
        writes := [] } := by
  change Prog.exec E (Prog.act o fun reply => (Prog.done reply).bind rest) state world = _
  simp only [Prog.exec, refused]
  rfl

end Barycenter.Dp
