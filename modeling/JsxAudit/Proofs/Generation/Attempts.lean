import JsxAudit.Generation.Service
import JsxAudit.Proofs.Generation.Answer

/-!
The attempts of an asking.

All attempts send the same request, and each finds the network as the ones before have left it. The
asking is over with the first reply that does not refuse, or when no attempt is left, and it ends as
the reading of its last reply does: `write_ends`. So refusals are asked about again, and a reply
that misleads is not.
-/

namespace JsxAudit.Generation

open Data Http

variable {e : Endpoint} {net : Network} {r : TextRequest}

/-- The reply to an attempt that has others before it. -/
def Endpoint.replyAfter (e : Endpoint) (net : Network) (r : TextRequest) (t : Trace)
    (before : Nat) : Reply :=
  net.reply (t.sent ++ List.replicate before (e.request net r)) (e.request net r)

/-- The last attempt is the first one that is not refused, or else the last possible one. -/
structure Endpoint.LastAttempt (e : Endpoint) (net : Network) (r : TextRequest) (t : Trace)
    (left last : Nat) : Prop where
  possible : last ≤ left
  refused : ∀ before < last, Refuses net e.wire (e.replyAfter net r t before)
  final : last < left → ¬ Refuses net e.wire (e.replyAfter net r t last)

theorem Endpoint.LastAttempt.unique {t : Trace} {left last last' : Nat}
    (h : e.LastAttempt net r t left last) (h' : e.LastAttempt net r t left last') :
    last = last' := by
  rcases Nat.lt_trichotomy last last' with earlier | same | later
  · exact (h.final (Nat.lt_of_lt_of_le earlier h'.possible) (h'.refused last earlier)).elim
  · exact same
  · exact (h'.final (Nat.lt_of_lt_of_le later h.possible) (h.refused last' later)).elim

/-- The session that the second attempt finds. -/
def Endpoint.again (e : Endpoint) (net : Network) (r : TextRequest) (t : Trace) (wait : Nat) :
    Trace :=
  { sent := t.sent ++ [e.request net r], pauses := t.pauses ++ [wait] }

theorem replyAfter_again (t : Trace) (wait before : Nat) :
    e.replyAfter net r (e.again net r t wait) before = e.replyAfter net r t (before + 1) := by
  simp [Endpoint.replyAfter, Endpoint.again, List.replicate_succ]

/-- An attempt that is refused is followed by the others. -/
theorem Endpoint.LastAttempt.later {t : Trace} {wait left last : Nat}
    (refused : Refuses net e.wire (e.replyAfter net r t 0))
    (h : e.LastAttempt net r (e.again net r t wait) left last) :
    e.LastAttempt net r t (left + 1) (last + 1) where
  possible := Nat.succ_le_succ h.possible
  refused := by
    intro before earlier
    cases before with
    | zero => exact refused
    | succ before =>
      rw [← replyAfter_again t wait]
      exact h.refused before (Nat.lt_of_succ_lt_succ earlier)
  final := by
    intro more
    rw [← replyAfter_again t wait]
    exact h.final (Nat.lt_of_succ_lt_succ more)

/-- What is concluded from a reading ends as the reading does. -/
theorem Ends.concluded {x : Except Failure TextAnswer} {gives : TextAnswer → Prop}
    {refused misshapen : Prop} (h : Ends x gives refused misshapen) (trim : String → String)
    (attempts : Nat) : Ends (concluded trim attempts x)
      (fun a => ∃ given, gives given ∧ a = { given with text := trim given.text })
      refused misshapen := by
  refine ends_of_cases ?_ ?_ ?_ ?_
  · rintro _ ⟨given, g, rfl⟩
    rw [(h.gives_iff given).mpr g]
    rfl
  · intro no
    obtain ⟨message, rfl⟩ := h.refused_iff.mpr no
    exact ⟨_, rfl⟩
  · intro bad
    obtain ⟨fault, rfl⟩ := h.faults_iff.mpr bad
    exact ⟨fault, rfl⟩
  · cases x with
    | ok given => exact .inl ⟨_, given, (h.gives_iff given).mp rfl, rfl⟩
    | error f =>
      cases f with
      | refused message => exact .inr (.inl (h.refused_iff.mp ⟨message, rfl⟩))
      | fault fault => exact .inr (.inr (h.faults_iff.mp ⟨fault, rfl⟩))

end JsxAudit.Generation
