import Templating.Proofs.Template.Nesting

/-!
# Names in a template

A template says what it wants of a context by the paths in its tree, and each of these begins with a
name.  The paths stand in the parameters of tags, and there in the parameters of calls.
-/

namespace Templating

mutual

/-- The names that the paths in a node begin with. -/
def Node.names : Node → List String
  | .identifier _ (.key name :: _) => [name]
  | .tag _ _ params body orelse => namesOf params ++ (branchNames body ++ branchNames orelse)
  | .identifier .. | .raw .. | .constant .. | .bare _ => []

def namesOf : List Node → List String
  | [] => []
  | node :: rest => node.names ++ namesOf rest

def branchNames : Option (List Node) → List String
  | none => []
  | some nodes => namesOf nodes

end

theorem mem_namesOf_iff {name : String} {nodes : List Node} :
    name ∈ namesOf nodes ↔ ∃ node ∈ nodes, name ∈ node.names := by
  induction nodes with
  | nil => simp [namesOf]
  | cons node rest ih => simp [namesOf, ih]

theorem mem_walk_iff {mark : Mark} {nodes : List Node} :
    mark ∈ walk nodes ↔ ∃ node ∈ nodes, mark ∈ node.walk := by
  induction nodes with
  | nil => simp [walk]
  | cons node rest ih => simp [walk, ih]

/-- All paths in a node begin with one of the names. -/
inductive Node.DrawsOn (named : String → Prop) : Node → Prop
  | raw (p : Position) (text : String) : DrawsOn named (.raw p text)
  | constant (p : Position) (value : Value) : DrawsOn named (.constant p value)
  | path (p : Position) {name : String} (steps : List Step) :
      named name → DrawsOn named (.identifier p (.key name :: steps))
  | tag {p : Position} {name : String} {params : List Node} {body orelse : Option (List Node)} :
      (∀ node ∈ params, node.DrawsOn named) → (∀ node ∈ body.getD [], node.DrawsOn named) →
      (∀ node ∈ orelse.getD [], node.DrawsOn named) →
      DrawsOn named (.tag p name params body orelse)

/-! ## Paths of parameters -/

def Mark.params : Mark → List Node
  | .inline _ _ params | .opening _ _ params | .raw _ params _ => params
  | .text .. | .otherwise | .closing _ => []

theorem Construct.Sound.isExpression {c : Construct} (h : c.Sound) :
    ∀ node ∈ c.mark.params, node.IsExpression := by
  cases c with
  | inline | rawBlock => exact h
  | opening => exact h.2
  | text | otherwise | closing =>
      intro node member
      cases member

namespace Node

variable {named : String → Prop}

theorem IsExpression.drawsOn {node : Node} (h : node.IsExpression)
    (all : ∀ name ∈ node.names, named name) : node.DrawsOn named := by
  induction h with
  | constant p value => exact .constant p value
  | path p name steps => exact .path p steps (all name (by simp [names]))
  | call _ ih =>
      refine .tag ?_ (by simp) (by simp)
      intro node member
      refine ih node member fun name inside => all name ?_
      rw [names]
      exact List.mem_append_left _ (mem_namesOf_iff.2 ⟨node, member, inside⟩)

/-- The walk of a node meets the parameters of every tag that stands in it. -/
theorem InDocument.drawsOn {node : Node} (h : node.InDocument)
    (written : ∀ mark ∈ node.walk, ∀ param ∈ mark.params, param.IsExpression)
    (all : ∀ name ∈ node.names, named name) : node.DrawsOn named := by
  have parameters {params : List Node} {body orelse : Option (List Node)}
      (written : ∀ param ∈ params, param.IsExpression)
      (all : ∀ name ∈ namesOf params ++ (branchNames body ++ branchNames orelse), named name) :
      ∀ param ∈ params, param.DrawsOn named := by
    intro param member
    refine (written param member).drawsOn fun name inside => all name ?_
    exact List.mem_append_left _ (mem_namesOf_iff.2 ⟨param, member, inside⟩)
  induction h with
  | raw p text => exact .raw p text
  | inline =>
      rw [names] at all
      rw [walk] at written
      exact .tag (parameters (written _ List.mem_cons_self) all) (by simp) (by simp)
  | @block p name params body orelse ordinary _ _ _ inBody inElse =>
      rw [names] at all
      rw [walk] at written
      simp only [if_neg ordinary] at written
      refine .tag (parameters (written _ List.mem_cons_self) all) ?_ ?_
      · intro node member
        rw [Option.getD_some] at member
        refine inBody node member (fun mark met => written mark ?_) fun name inside => all name ?_
        · simp [mem_walk_iff.2 ⟨node, member, met⟩]
        · simp [branchNames, mem_namesOf_iff.2 ⟨node, member, inside⟩]
      · intro node member
        obtain ⟨nodes, rfl⟩ : ∃ nodes, orelse = some nodes := by
          cases orelse with
          | none => cases member
          | some nodes => exact ⟨nodes, rfl⟩
        rw [Option.getD_some] at member
        refine inElse nodes rfl node member (fun mark met => written mark ?_)
          fun name inside => all name ?_
        · simp [walkElse, mem_walk_iff.2 ⟨node, member, met⟩]
        · simp [branchNames, mem_namesOf_iff.2 ⟨node, member, inside⟩]
  | rawBlock _ content =>
      rw [names] at all
      rw [walk] at written
      refine .tag (parameters (written _ List.mem_cons_self) all) ?_ (by simp)
      intro node member
      rcases content with rfl | ⟨q, text, rfl⟩
      · cases member
      · rw [List.mem_singleton.1 member]
        exact .raw q text

end Node

namespace Template

/-- The paths in the tree of a template begin with its names, and with nothing else. -/
theorem drawsOn_of_read {named : String → Prop} {data : List UInt8} {tree : List Node}
    (h : read data = .ok tree) (all : ∀ name ∈ namesOf tree, named name) :
    ∀ node ∈ tree, node.DrawsOn named := by
  obtain ⟨constructs, reads, -, walked, -, document⟩ :=
    walk_of_parse ((@parse_eq_ok_iff defaultFile data tree).2 h)
  intro node member
  refine (document node member).drawsOn (fun mark met => ?_) fun name inside => ?_
  · have shown := mem_walk_iff.2 ⟨node, member, met⟩
    rw [walked] at shown
    obtain ⟨c, read, rfl⟩ := List.mem_map.1 shown
    exact (reads.sound c read).isExpression
  · exact all name (mem_namesOf_iff.2 ⟨node, member, inside⟩)

end Template

end Templating
