import JsxAudit.Proofs.Data.Related
import JsxAudit.Proofs.Syntax.Spans
import JsxAudit.Source.File

/-!
Nodes that are written alike.

A node is a copy of another one, of the same file or a different one, if kind, role and text are the
same and the children are copies one by one. Where the two stand plays no part. What is asked of
nodes by themselves and by what holds them has the same answer for a copy (`Copied.any_preorder`).
-/

namespace JsxAudit.Source

open Syntax

section

variable (f f' : SourceFile)

mutual

/-- The second node is written as the first one is. -/
def Copied : Node → Node → Prop
  | .mk kind role start stop children, n' =>
    n'.kind = kind ∧ n'.role = role ∧
      f'.nodeText n' = f.nodeText (.mk kind role start stop children) ∧
      CopiedAll children n'.children

/-- The nodes of the second list are written as those of the first one, each in its place. -/
def CopiedAll : List Node → List Node → Prop
  | [], ns' => ns' = []
  | _ :: _, [] => False
  | n :: ns, n' :: ns' => Copied n n' ∧ CopiedAll ns ns'

end

end

variable {f f' : SourceFile} {n n' : Node} {ns ns' : List Node}

/-! ### Deciding that nodes are written alike -/

mutual

def decideCopied : (n n' : Node) → Decidable (Copied f f' n n')
  | .mk kind role start stop children, n' =>
    have : Decidable (CopiedAll f f' children n'.children) := decideCopiedAll children n'.children
    inferInstanceAs (Decidable (n'.kind = kind ∧ n'.role = role ∧
      f'.nodeText n' = f.nodeText (.mk kind role start stop children) ∧
      CopiedAll f f' children n'.children))

def decideCopiedAll : (ns ns' : List Node) → Decidable (CopiedAll f f' ns ns')
  | [], ns' => inferInstanceAs (Decidable (ns' = []))
  | _ :: _, [] => .isFalse id
  | n :: ns, n' :: ns' =>
    have : Decidable (Copied f f' n n') := decideCopied n n'
    have : Decidable (CopiedAll f f' ns ns') := decideCopiedAll ns ns'
    inferInstanceAs (Decidable (Copied f f' n n' ∧ CopiedAll f f' ns ns'))

end

instance : Decidable (CopiedAll f f' ns ns') :=
  decideCopiedAll ns ns'

/-! ### Parts of copies -/

theorem copiedAll_iff : CopiedAll f f' ns ns' ↔ List.Forall₂ (Copied f f') ns ns' := by
  induction ns generalizing ns' with
  | nil => rw [CopiedAll, List.forall₂_nil_left_iff]
  | cons n ns ih =>
    cases ns' with
    | nil => rw [CopiedAll, List.forall₂_nil_right_iff]; simp
    | cons n' ns' => rw [CopiedAll, ih, List.forall₂_cons]

theorem copied_iff : Copied f f' n n' ↔ n'.kind = n.kind ∧ n'.role = n.role ∧
    f'.nodeText n' = f.nodeText n ∧ List.Forall₂ (Copied f f') n.children n'.children := by
  cases n with
  | mk kind role start stop children =>
    rw [Copied, copiedAll_iff]
    rfl

namespace Copied

variable (h : Copied f f' n n')

include h

theorem kind : n'.kind = n.kind :=
  (copied_iff.mp h).1

theorem role : n'.role = n.role :=
  (copied_iff.mp h).2.1

theorem text : f'.nodeText n' = f.nodeText n :=
  (copied_iff.mp h).2.2.1

theorem children : List.Forall₂ (Copied f f') n.children n'.children :=
  (copied_iff.mp h).2.2.2

theorem namedChildren : List.Forall₂ (Copied f f') n.namedChildren n'.namedChildren :=
  (rel_filter (p := (·.kind.isNamed)) (q := (·.kind.isNamed)) h.children
    fun _ _ child => by rw [child.kind]).imp fun _ _ both => both.2

theorem child? (role : Role) : Option.Rel (Copied f f') (n.child? role) (n'.child? role) :=
  rel_imp (rel_find? (p := (·.role = some role)) (q := (·.role = some role)) h.children
    fun _ _ child => by rw [child.role]) fun _ _ both => both.2

theorem unwrapThrough (p : Kind → Bool) :
    Copied f f' (n.unwrapThrough p) (n'.unwrapThrough p) :=
  Node.unwrapThrough_rel (fun _ _ => kind) (fun _ _ both _ => both.namedChildren) h

end Copied

/-! ### Nodes below -/

/-- What is asked of nodes by themselves and by the kind of the node that holds them is answered
alike for all nodes of a tree and those of its copy. -/
theorem Copied.any_preorder {p q : Site → Bool} {above above' : List Node}
    (same : ∀ s s' : Site, Copied f f' s.node s'.node →
      s'.above.head?.map Node.kind = s.above.head?.map Node.kind → p s = q s')
    (h : Copied f f' n n')
    (holder : above'.head?.map Node.kind = above.head?.map Node.kind) :
    (Site.preorder above n).any p = (Site.preorder above' n').any q := by
  induction n using Node.children_induction generalizing n' above above' with
  | step n ih =>
    have inside : ∀ c ∈ n.children, ∀ c', Copied f f' c c' →
        (Site.preorder (n :: above) c).any p = (Site.preorder (n' :: above') c').any q := by
      intro c mem c' child
      exact ih c mem child (by simp [h.kind])
    have below : (n.children.flatMap (Site.preorder (n :: above))).any p =
        (n'.children.flatMap (Site.preorder (n' :: above'))).any q := by
      rw [List.any_flatMap, List.any_flatMap]
      refine any_eq_of_rel (rel_mem_zip h.children) fun c c' ⟨mem, child⟩ => ?_
      exact inside c (List.of_mem_zip mem).1 c' child
    rw [Site.preorder_eq, Site.preorder_eq, List.any_cons, List.any_cons, below,
      same ⟨n, above⟩ ⟨n', above'⟩ h holder]

end JsxAudit.Source
