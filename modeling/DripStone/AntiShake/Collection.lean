import DripStone.AntiShake.Placement
import DripStone.Library.Fallible

/-!
# Which methods the first pass collects

A method is collected for itself or by the name of a lambda's implementation.
The class is guarded as it should be if and only if the methods collected are
the ones that handle a click.
-/

namespace DripStone.AntiShake

open DripStone.Library

variable {config : AntiShakeConfig} {classNode : ClassNode}
variable {methodNode : MethodNode}

/-! ## The first pass -/

theorem Direct.collected (direct : Direct config classNode methodNode)
    (inMethods : methodNode ∈ classNode.methods) :
    Collected config classNode methodNode :=
  Or.inl ⟨methodNode, inMethods, direct, rfl⟩

end DripStone.AntiShake
