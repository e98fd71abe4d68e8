import Ambient.Captor

/-!
# Chains of crossers

The crossers in scope on a thread form a chain with the innermost in front.  A
crosser is never opened twice, so two chains are the same node exactly when
they are equal lists.  Walking a chain outwards meets the innermost captor of
every type before the ones it shadows.
-/

namespace Ambient

/-- The thread that opened a crosser, and how many it had opened before. -/
structure CrosserId where
  thread : ThreadId
  index : Nat
deriving DecidableEq, Repr

structure Crosser where
  id : CrosserId
  type : CaptorType
  captor : CaptorId
deriving DecidableEq, Repr

/-- A crosser and the ones around it, innermost first. -/
abbrev Chain := List Crosser

namespace Chain

/-- Whether two chains are the same node.  Chains that share what is around
their innermost crossers are told apart without walking it. -/
def decideEq : (left right : Chain) → Decidable (left = right)
  | [], [] => .isTrue rfl
  | [], _ :: _ => .isFalse (by simp)
  | _ :: _, [] => .isFalse (by simp)
  | first :: outer, second :: around =>
      if same : first = second then
        match withPtrEqDecEq outer around (fun _ => decideEq outer around) with
        | .isTrue equal => .isTrue (by rw [same, equal])
        | .isFalse distinct => .isFalse (by simp [distinct])
      else
        .isFalse (by simp [same])

instance : DecidableEq Chain :=
  decideEq

def depth (chain : Chain) : Nat :=
  chain.length

/-- One crosser for each type on the chain, in the order in which the walk
from the innermost crosser meets the types. -/
def innermost : Chain → List Crosser
  | [] => []
  | crosser :: outer =>
      crosser :: (innermost outer).filter (fun other => other.type ≠ crosser.type)

/-- The captor of the innermost crosser of a type. -/
def captor? (type : CaptorType) : Chain → Option CaptorId
  | [] => none
  | crosser :: outer =>
      if crosser.type = type then some crosser.captor else captor? type outer

@[simp] theorem depth_nil : depth [] = 0 :=
  rfl

@[simp] theorem depth_cons (crosser : Crosser) (outer : Chain) :
    depth (crosser :: outer) = depth outer + 1 :=
  rfl

/-- The walk never keeps two crossers of one type. -/
theorem innermost_types_nodup (chain : Chain) :
    ((innermost chain).map (·.type)).Nodup := by
  induction chain with
  | nil => simp [innermost]
  | cons first outer ih =>
      simp only [innermost, List.map_cons, List.nodup_cons]
      refine ⟨by simp, ?_⟩
      exact ih.sublist (List.Sublist.map _ (List.filter_sublist))

end Chain

end Ambient
