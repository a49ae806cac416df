import DripStone.AntiShake.Transform

/-!
# Which methods are guarded

The methods that handle a click are those of a hook point, those with an
annotation and the implementations of lambdas.  The first pass leaves static
methods, unchecked methods and methods it has already collected before it
looks at their lambdas, and it keeps of a lambda the name and descriptor of
the implementation; the second pass guards every method of that name.
-/

namespace DripStone.AntiShake

variable (config : AntiShakeConfig) (classNode : ClassNode)

/-! ## The law -/

def Annotated (methodNode : MethodNode) : Prop :=
  methodNode.onlyOneViewParameter ∧
    (methodNode.hasCheckViewAnnotation config ∨
      methodNode.hasButterKnifeOnClickAnnotation)

/-- The local variable of a parameter. -/
def MethodNode.slot (methodNode : MethodNode) (parameterIndex : Nat) : Nat :=
  (if methodNode.isStatic then 0 else 1) +
    ((methodNode.desc.argumentTypes.take parameterIndex).map size).sum

/-- A method with code and a parameter to load. -/
def Guardable (methodNode : MethodNode) : Prop :=
  methodNode.instructions ≠ [] ∧
    ViewDescriptor ∈ methodNode.desc.argumentTypes

/-- The method with the call of the checker on its first view in front. -/
def guarded (methodNode : MethodNode) : MethodNode :=
  match methodNode.desc.argumentTypes.findIdx? (· = ViewDescriptor) with
  | none => methodNode
  | some viewArgumentIndex =>
      if methodNode.instructions = [] then methodNode
      else { methodNode with
        instructions :=
          checkerCall config (methodNode.slot viewArgumentIndex) ++
            methodNode.instructions }

/-- The methods of a kind are guarded; nothing else changes. -/
def GuardedWhere (kind : MethodNode → Prop) (modified : ClassNode) : Prop :=
  modified.name = classNode.name ∧
    modified.interfaces = classNode.interfaces ∧
    List.Forall₂
      (fun methodNode after =>
        (kind methodNode → after = guarded config methodNode) ∧
        (¬ kind methodNode → after = methodNode))
      classNode.methods modified.methods

/-- The method is collected for itself. -/
def Direct (methodNode : MethodNode) : Prop :=
  methodNode.isStatic = false ∧
    methodNode.hasUncheckViewOnClickAnnotation config = false ∧
    (Annotated config methodNode ∨
      classNode.isHookPoint config methodNode)

/-- The lambdas of the method are looked at. -/
def Scanned (methodNode : MethodNode) : Prop :=
  methodNode.isStatic = false ∧
    methodNode.hasUncheckViewOnClickAnnotation config = false ∧
    ¬ (Annotated config methodNode ∨
      classNode.isHookPoint config methodNode)

/-- A lambda of a scanned method names the method, whatever class it means. -/
def Named (methodNode : MethodNode) : Prop :=
  ∃ creator ∈ classNode.methods, Scanned config classNode creator ∧
    ∃ node ∈ creator.findHookPointLambda config, ∃ handle,
      node.bsmArgs[1]? = some (.handle handle) ∧
        handle.name ++ handle.desc.text = methodNode.nameWithDesc

def Collected (methodNode : MethodNode) : Prop :=
  (∃ direct ∈ classNode.methods, Direct config classNode direct ∧
    direct.nameWithDesc = methodNode.nameWithDesc) ∨
  Named config classNode methodNode

variable {config : AntiShakeConfig} {classNode : ClassNode}
variable {methodNode : MethodNode}

theorem guarded_of_not_guardable (bare : ¬ Guardable methodNode) :
    guarded config methodNode = methodNode := by
  unfold guarded
  cases found : methodNode.desc.argumentTypes.findIdx?
      (· = ViewDescriptor) with
  | none => rfl
  | some viewArgumentIndex =>
      by_cases empty : methodNode.instructions = []
      · exact if_pos empty
      · obtain ⟨inRange, isView, _⟩ :=
          List.findIdx?_eq_some_iff_getElem.mp found
        have view := of_decide_eq_true isView
        exact absurd ⟨empty, view ▸ List.getElem_mem inRange⟩ bare

theorem GuardedWhere.congr {kind other : MethodNode → Prop}
    {modified : ClassNode}
    (placed : GuardedWhere config classNode kind modified)
    (same : ∀ methodNode ∈ classNode.methods, Guardable methodNode →
      (kind methodNode ↔ other methodNode)) :
    GuardedWhere config classNode other modified := by
  obtain ⟨sameName, sameInterfaces, methods⟩ := placed
  refine ⟨sameName, sameInterfaces, ?_⟩
  rw [List.forall₂_iff_zip] at methods ⊢
  refine ⟨methods.1, ?_⟩
  intro methodNode after pair
  have inMethods := (List.of_mem_zip pair).1
  have atPair := methods.2 pair
  by_cases guardable : Guardable methodNode
  · rwa [same methodNode inMethods guardable] at atPair
  · rw [guarded_of_not_guardable guardable] at atPair ⊢
    have unchanged : after = methodNode := by
      by_cases ofKind : kind methodNode
      · exact atPair.1 ofKind
      · exact atPair.2 ofKind
    exact ⟨fun _ => unchanged, fun _ => unchanged⟩

end DripStone.AntiShake
