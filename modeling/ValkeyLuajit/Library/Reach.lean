import Mathlib.Logic.Basic

/-!
# What can be reached by following fields

Nodes hold other nodes under labels. What is reached from some roots stays inside
every set that contains the roots and is closed under fields.
-/

namespace ValkeyLuajit

universe u v

/-- What a node holds under a label. -/
abbrev Fields (Node : Type u) (Label : Type v) := Node → Label → Option Node

namespace Fields

variable {Node : Type u} {Label : Type v}

/-- The nodes reached from the roots. -/
inductive Reaches (fields : Fields Node Label) (roots : List Node) : Node → Prop where
  | root {node : Node} : node ∈ roots → Reaches fields roots node
  | field {holder node : Node} {label : Label} : Reaches fields roots holder →
      fields holder label = some node → Reaches fields roots node

/-- The set is closed under fields. -/
def ClosedIn (fields : Fields Node Label) (inside : Node → Prop) : Prop :=
  ∀ holder label node, inside holder → fields holder label = some node → inside node

/-- What is reached from inside a closed set stays inside. -/
theorem Reaches.within {fields : Fields Node Label} {roots : List Node} {inside : Node → Prop}
    {node : Node} (closed : fields.ClosedIn inside) (start : ∀ root ∈ roots, inside root)
    (reaches : fields.Reaches roots node) : inside node := by
  induction reaches with
  | root member => exact start _ member
  | field _ held ih => exact closed _ _ _ ih held

variable [DecidableEq Node] [DecidableEq Label]

/-- Hold another node, or nothing, under a label. -/
def set (fields : Fields Node Label) (holder : Node) (label : Label) (node : Option Node) :
    Fields Node Label :=
  fun other name => if other = holder ∧ name = label then node else fields other name

/-- Holding a node of the set keeps it closed. -/
theorem ClosedIn.set {fields : Fields Node Label} {inside : Node → Prop} {holder : Node}
    {label : Label} {value : Option Node} (closed : fields.ClosedIn inside)
    (held : ∀ node, inside holder → value = some node → inside node) :
    (fields.set holder label value).ClosedIn inside := by
  intro other name node isInside found
  unfold Fields.set at found
  split at found
  · rename_i here
    exact held node (here.1 ▸ isInside) found
  · exact closed other name node isInside found

end Fields

end ValkeyLuajit
