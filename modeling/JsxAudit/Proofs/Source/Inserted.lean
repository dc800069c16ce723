import JsxAudit.Proofs.Source.Copied

/-!
Nodes among which others are put.

What is put into a text at an offset makes new nodes, and the tree that had been there stands around
them. `Inserted` compares the two trees from the root down: a node that has the offset inside keeps
its kind and its role, any other node is copied, and the new nodes stand where no node has the
offset inside. A list of nodes is then either split into two (`exists_insertion`), or its nodes
correspond one by one (`forall₂_inserted`).
-/

namespace JsxAudit.Syntax.Node

/-- The offset is inside the node, and at neither of its ends. -/
def Covers (n : Node) (offset : Nat) : Prop :=
  n.start < offset ∧ offset < n.stop

instance (n : Node) (offset : Nat) : Decidable (n.Covers offset) :=
  inferInstanceAs (Decidable (_ ∧ _))

variable {n c : Node} {ns : List Node} {offset start stop : Nat}

theorem Within.covers (h : c.Within n) (inside : c.Covers offset) : n.Covers offset :=
  ⟨Nat.lt_of_le_of_lt h.start_le inside.1, Nat.lt_of_lt_of_le inside.2 h.stop_le⟩

theorem not_covers_iff : ¬ n.Covers offset ↔ n.stop ≤ offset ∨ offset ≤ n.start := by
  unfold Covers
  omega

/-- Of the children of a node only one can have an offset inside. -/
theorem eq_of_covers {a b : Node} (h : n.WellFormed) (first : a ∈ n.children)
    (second : b ∈ n.children) (inside : a.Covers offset) (inside' : b.Covers offset) : a = b := by
  obtain ⟨start, stop⟩ := inside
  obtain ⟨start', stop'⟩ := inside'
  by_contra ne
  rcases apart_of_mem_children h first second ne with before | behind
  · omega
  · omega

theorem ordered_children (h : n.WellFormed) : Ordered n.start n.stop n.children := by
  cases n
  exact h.2

theorem Ordered.start_le (h : Ordered start stop ns) (mem : n ∈ ns) : start ≤ n.start :=
  ((ordered_iff.mp h).1 n mem).1

theorem Ordered.not_covers (h : Ordered start stop ns) (le : offset ≤ start) (mem : n ∈ ns) :
    ¬ n.Covers offset :=
  not_covers_iff.mpr (.inr (Nat.le_trans le (h.start_le mem)))

end JsxAudit.Syntax.Node

namespace JsxAudit.Source

open Syntax

section

variable (f f' : SourceFile) (offset : Nat) (isNew : List Node → Bool)

mutual

/-- The second node is written as the first one is, with something new at the offset if the node has
the offset inside. -/
def Inserted : Node → Node → Prop
  | .mk kind role start stop children, n' =>
    if Node.Covers (.mk kind role start stop children) offset then
      n'.kind = kind ∧ n'.role = role ∧ InsertedAll children n'.children
    else Copied f f' (.mk kind role start stop children) n'

/-- The nodes of the second list are those of the first one, with something new in the one that has
the offset inside, or with new nodes before the first one that stands behind the offset. -/
def InsertedAll : List Node → List Node → Prop
  | [], ns' => isNew ns' = true
  | _ :: _, [] => False
  | n :: ns, n' :: ns' =>
    if offset ≤ n.start then
      let added := ns'.length - ns.length
      isNew ((n' :: ns').take added) = true ∧ CopiedAll f f' (n :: ns) ((n' :: ns').drop added)
    else Inserted n n' ∧ if n.stop ≤ offset then InsertedAll ns ns' else CopiedAll f f' ns ns'

end

end

variable {f f' : SourceFile} {offset start stop : Nat} {isNew : List Node → Bool} {n n' : Node}
  {ns ns' : List Node}

/-! ### Deciding what is inserted -/

mutual

def decideInserted : (n n' : Node) → Decidable (Inserted f f' offset isNew n n')
  | .mk kind role start stop children, n' => by
    have : Decidable (InsertedAll f f' offset isNew children n'.children) :=
      decideInsertedAll children n'.children
    have : Decidable (Copied f f' (.mk kind role start stop children) n') := decideCopied _ _
    unfold Inserted
    infer_instance

def decideInsertedAll : (ns ns' : List Node) → Decidable (InsertedAll f f' offset isNew ns ns')
  | [], ns' => inferInstanceAs (Decidable (isNew ns' = true))
  | _ :: _, [] => .isFalse id
  | n :: ns, n' :: ns' => by
    have : Decidable (Inserted f f' offset isNew n n') := decideInserted n n'
    have : Decidable (InsertedAll f f' offset isNew ns ns') := decideInsertedAll ns ns'
    unfold InsertedAll
    infer_instance

end

instance : Decidable (InsertedAll f f' offset isNew ns ns') :=
  decideInsertedAll ns ns'

/-! ### Nodes -/

theorem inserted_of_not_covers (outside : ¬ n.Covers offset) :
    Inserted f f' offset isNew n n' ↔ Copied f f' n n' := by
  cases n
  rw [Inserted, if_neg outside]

theorem inserted_of_covers (inside : n.Covers offset) :
    Inserted f f' offset isNew n n' ↔ n'.kind = n.kind ∧ n'.role = n.role ∧
      InsertedAll f f' offset isNew n.children n'.children := by
  cases n
  rw [Inserted, if_pos inside]
  rfl

namespace Inserted

variable (h : Inserted f f' offset isNew n n')

include h

theorem kind : n'.kind = n.kind := by
  by_cases inside : n.Covers offset
  · exact ((inserted_of_covers inside).mp h).1
  · exact ((inserted_of_not_covers inside).mp h).kind

theorem role : n'.role = n.role := by
  by_cases inside : n.Covers offset
  · exact ((inserted_of_covers inside).mp h).2.1
  · exact ((inserted_of_not_covers inside).mp h).role

end Inserted

/-! ### Lists of nodes -/

/-- If no node has the offset inside, the new nodes stand between those before the offset and those
behind it. -/
theorem exists_insertion (ordered : Node.Ordered start stop ns)
    (outside : ∀ n ∈ ns, ¬ n.Covers offset) (h : InsertedAll f f' offset isNew ns ns') :
    ∃ xs ys front news back, ns = xs ++ ys ∧ ns' = front ++ news ++ back ∧
      isNew news = true ∧ List.Forall₂ (Copied f f') xs front ∧
      List.Forall₂ (Copied f f') ys back ∧
      (∀ x ∈ xs, x.stop ≤ offset) ∧ ∀ y ∈ ys, offset ≤ y.start := by
  induction ns generalizing ns' start with
  | nil => exact ⟨[], [], [], ns', [], rfl, by simp, h, .nil, .nil, nofun, nofun⟩
  | cons n ns ih =>
    cases ns' with
    | nil => exact absurd h id
    | cons n' ns' =>
      rw [InsertedAll] at h
      split at h
      -- the new nodes come first, and all others behind them
      next le =>
        obtain ⟨new, copied⟩ := h
        refine ⟨[], n :: ns, [], _, _, rfl, (List.take_append_drop _ _).symm, new, .nil,
          copiedAll_iff.mp copied, nofun, fun y mem => ?_⟩
        rcases List.mem_cons.mp mem with rfl | mem
        · exact le
        · exact Nat.le_trans (Nat.le_trans le (Node.start_le_stop ordered.2.2.1))
            (ordered.2.2.2.start_le mem)
      next lt =>
        obtain ⟨first, rest⟩ := h
        have other : ¬ n.Covers offset := outside n List.mem_cons_self
        have before : n.stop ≤ offset := (Node.not_covers_iff.mp other).resolve_right lt
        rw [if_pos before] at rest
        obtain ⟨xs, ys, front, news, back, rfl, rfl, new, left, right, befores, behinds⟩ :=
          ih ordered.2.2.2 (fun m mem => outside m (List.mem_cons_of_mem _ mem)) rest
        exact ⟨n :: xs, ys, n' :: front, news, back, rfl, rfl, new,
          .cons ((inserted_of_not_covers other).mp first) left, right,
          List.forall_mem_cons.mpr ⟨before, befores⟩, behinds⟩

/-- If a node has the offset inside, nothing new stands beside it. -/
theorem forall₂_inserted (ordered : Node.Ordered start stop ns)
    (inside : ∃ n ∈ ns, n.Covers offset) (h : InsertedAll f f' offset isNew ns ns') :
    List.Forall₂ (Inserted f f' offset isNew) ns ns' := by
  induction ns generalizing ns' start with
  | nil => simp at inside
  | cons n ns ih =>
    obtain ⟨m, mem, covers⟩ := inside
    cases ns' with
    | nil => exact absurd h id
    | cons n' ns' =>
      rw [InsertedAll] at h
      split at h
      -- nodes from here on begin behind the offset
      next le =>
        have later : Node.Ordered n.start stop (n :: ns) :=
          ⟨Nat.le_refl _, ordered.2.1, ordered.2.2⟩
        exact absurd covers (later.not_covers le mem)
      next =>
        obtain ⟨first, rest⟩ := h
        refine .cons first ?_
        split at rest
        next before =>
          refine ih ordered.2.2.2 ⟨m, ?_, covers⟩ rest
          rcases List.mem_cons.mp mem with rfl | mem
          · exact absurd covers (Node.not_covers_iff.mpr (.inl before))
          · exact mem
        next behind =>
          have outside {c : Node} (mem : c ∈ ns) : ¬ c.Covers offset :=
            ordered.2.2.2.not_covers (Nat.le_of_not_le behind) mem
          exact (rel_mem_zip (copiedAll_iff.mp rest)).imp fun c c' ⟨mem, copied⟩ =>
            (inserted_of_not_covers (outside (List.of_mem_zip mem).1)).mpr copied

end JsxAudit.Source
