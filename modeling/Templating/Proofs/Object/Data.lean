import Templating.Proofs.Object.Success
import Templating.Proofs.Object.TextOrder
import Templating.Proofs.Value.Data

/-!
# Encodings are data

Encoding turns objects into scalars, arrays and dictionaries and refuses what it knows no such form
of.  It never makes a value that is still an object of the application: if there is one in the
result, it stood ready in the data.
-/

namespace Templating

open Value (closed_isData)

theorem ObjectNode.isData_of_assemble {node : ObjectNode} {values : List Value} {v : Value}
    (h : node.assemble values = .ok v) (all : ∀ w ∈ values, w.IsData) : v.IsData := by
  cases node with
  | set items | frozenSet items =>
      obtain ⟨ordered, sorted, same⟩ := bind_eq_ok_iff.1 h
      cases same
      exact .array fun w inside => all w ((perm_of_orderByText sorted).subset inside)
  | mapping plain entries =>
      cases h
      exact closed_isData.ofEntries fun entry inside => all entry.2 (List.of_mem_zip inside).2
  | _ =>
      cases h
      exact .array all

namespace Graph

variable {g : Graph} {r : Ref} {v : Value}

/-- Whatever values stand ready in the object are data. -/
def ReadyData (g : Graph) (r : Ref) : Prop :=
  ∀ c, g.Within r c → ∀ w, g.node c = .ready w → w.IsData

theorem ReadyData.part {c : Ref} (h : g.ReadyData r) (part : g.Holds r c) : g.ReadyData c :=
  fun d within => h d (within.head part)

theorem ReadyData.of_shape (h : g.ReadyData r) (shape : (g.node r).shape = .value v) :
    v.IsData := by
  have ready := h r .refl
  cases node : g.node r <;>
    simp only [node, ObjectNode.shape, ObjectNode.atom?, Shape.value.injEq, reduceCtorEq] at shape
  case ready w => exact shape ▸ ready w node
  all_goals
    subst shape
    constructor

theorem Yields.isData {fuel : Nat} {noted : List Ref} (h : g.Yields fuel noted r v)
    (ready : g.ReadyData r) : v.IsData := by
  induction h with
  | value shape => exact ready.of_shape shape
  | member shape _ ih => exact ih (ready.part (unnoted_iff.2 shape).1)
  | provider shape _ _ _ ih | provider_container shape _ _ ih =>
      exact ih (ready.part (holds_provider shape))
  | container _ _ _ length _ assembled ih =>
      refine ObjectNode.isData_of_assemble assembled fun w member => ?_
      obtain ⟨c, part, inside⟩ := exists_mem_zip length member
      exact ih _ inside (ready.part part)
  | record shape read _ length _ ih =>
      refine closed_isData.ofEntries fun entry inside => ?_
      obtain ⟨c, part, inside⟩ := exists_mem_zip length (List.of_mem_zip inside).2
      obtain ⟨own, member, rfl⟩ := List.mem_map.1 part
      have held : .ok (.key own.1, own.2) ∈ namedMembers _ := List.mem_map_of_mem member
      exact ih _ inside (ready.part (holds_of_mem_named shape read held))

theorem isData_of_encode (ready : g.ReadyData r) (h : g.encode r = .ok v) : v.IsData :=
  (encode_eq_ok_iff.1 h).isData ready

end Graph

end Templating
