import Templating.Proofs.Template.Names
import Templating.Proofs.Value.Data

/-!
# Constants in a template

The constants that a template writes are texts, numbers, truths and null.  No object of the
application stands in its tree.
-/

namespace Templating

/-- All constants in the node are data. -/
inductive Node.HoldsData : Node → Prop
  | raw (p : Position) (text : String) : HoldsData (.raw p text)
  | constant (p : Position) {v : Value} : v.IsData → HoldsData (.constant p v)
  | identifier (p : Position) (path : List Step) : HoldsData (.identifier p path)
  | tag {p : Position} {name : String} {params : List Node} {body orelse : Option (List Node)} :
      (∀ node ∈ params, node.HoldsData) → (∀ node ∈ body.getD [], node.HoldsData) →
      (∀ node ∈ orelse.getD [], node.HoldsData) → HoldsData (.tag p name params body orelse)

namespace Expression

theorem isData_of_keyword? {name : String} {v : Value} (h : keyword? name = some v) : v.IsData := by
  unfold keyword? at h
  split at h
  · cases h
    exact .bool true
  · cases h
    exact .bool false
  · cases h
    exact .null
  · cases h

theorem isData_of_readNumber? {r after : Remaining} {v : Value}
    (h : readNumber? r = some (.ok (v, after))) : v.IsData := by
  obtain ⟨⟨negative, whole, width, rest⟩, -, h⟩ := Option.map_eq_some_iff.1 h
  dsimp only at h
  split at h
  · cases h
    exact .float _
  · split at h
    · obtain ⟨n, -, same⟩ := map_eq_ok_iff.1 h
      cases same
      exact .int n
    · cases h
      exact .float _

theorem holdsData_of_readPath {p : Position} {name : String} {r after : Remaining} {node : Node}
    (h : readPath p name r = .ok (node, after)) : node.HoldsData := by
  rcases exists_of_readPath h with ⟨value, known, rfl, -⟩ | ⟨steps, rfl, -⟩
  · exact .constant p (isData_of_keyword? known)
  · exact .identifier p _

theorem kept_holdsData : Kept Node.HoldsData where
  string p content := .constant p (.string content)
  number p read := .constant p (isData_of_readNumber? read)
  path := holdsData_of_readPath
  call params := .tag params (by simp) (by simp)

end Expression

namespace Construct

open Expression (Kept)

variable {Q : Node → Prop} (closed : Kept Q)

include closed

theorem Piece.kept {p : Position} {bytes rest : List UInt8} {c : Construct}
    (h : Piece p bytes rest (some c)) : ∀ node ∈ c.mark.params, Q node := by
  cases h with
  | text => exact fun _ member => nomatch member
  | output _ _ output =>
      cases output with
      | expression reads =>
          intro node member
          rw [List.mem_singleton.1 member]
          exact reads.kept closed
  | statement _ _ statement =>
      cases statement with
      | closing | otherwise => exact fun _ member => nomatch member
      | opening _ _ _ parameters | inline _ _ _ _ parameters => exact parameters.kept closed
  | rawBlock _ _ statement =>
      cases statement with
      | opening _ _ _ parameters => exact parameters.kept closed

/-- What holds of all expressions that are read holds of the parameters of all constructs. -/
theorem Reads.kept {p q : Position} {data left : List UInt8} {constructs : List Construct}
    (h : Reads p data constructs q left) : ∀ c ∈ constructs, ∀ node ∈ c.mark.params, Q node := by
  induction h with
  | refl =>
      intro c member
      cases member
  | @step _ _ _ _ _ first _ piece _ ih =>
      intro c member
      cases first with
      | none => exact ih c member
      | some first =>
          rcases List.mem_cons.1 member with rfl | member
          · exact piece.kept closed
          · exact ih c member

end Construct

/-- The walk of a node meets the parameters of every tag that stands in it. -/
theorem Node.InDocument.holdsData {node : Node} (h : node.InDocument)
    (written : ∀ mark ∈ node.walk, ∀ param ∈ mark.params, param.HoldsData) : node.HoldsData := by
  induction h with
  | raw p text => exact .raw p text
  | inline =>
      rw [walk] at written
      exact .tag (written _ List.mem_cons_self) (by simp) (by simp)
  | @block p name params body orelse ordinary _ _ _ inBody inElse =>
      rw [walk] at written
      simp only [if_neg ordinary] at written
      refine .tag (written _ List.mem_cons_self) (fun node member => ?_) fun node member => ?_
      · rw [Option.getD_some] at member
        refine inBody node member fun mark met => written mark ?_
        simp [mem_walk_iff.2 ⟨node, member, met⟩]
      · cases orelse with
        | none => cases member
        | some nodes =>
            rw [Option.getD_some] at member
            refine inElse nodes rfl node member fun mark met => written mark ?_
            simp [walkElse, mem_walk_iff.2 ⟨node, member, met⟩]
  | rawBlock _ content =>
      rw [walk] at written
      refine .tag (written _ List.mem_cons_self) (fun node member => ?_) (by simp)
      rcases content with rfl | ⟨q, text, rfl⟩
      · cases member
      · rw [List.mem_singleton.1 member]
        exact .raw q text

theorem Template.holdsData_of_read {data : List UInt8} {tree : List Node}
    (h : read data = .ok tree) : ∀ node ∈ tree, node.HoldsData := by
  obtain ⟨constructs, reads, -, walked, -, document⟩ :=
    walk_of_parse ((@parse_eq_ok_iff defaultFile data tree).2 h)
  intro node member
  refine (document node member).holdsData fun mark met => ?_
  have shown := mem_walk_iff.2 ⟨node, member, met⟩
  rw [walked] at shown
  obtain ⟨c, read, rfl⟩ := List.mem_map.1 shown
  exact reads.kept Expression.kept_holdsData c read

end Templating
