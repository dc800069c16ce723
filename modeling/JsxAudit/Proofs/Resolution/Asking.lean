import JsxAudit.Proofs.Resolution.Outcome

/-!
The askings of a run, and the faults that end it.

`Turn.asks?` is what a turn asks for, and in which state. What has been asked for decides the turn:
an answer gives the fix a text, a refusal leaves it the offline text, and a fault ends the run, in
the state in which the asking has ended (`Due.resolveOne_of_asks`). `resolveAll_ends` says of a
whole run over what rules have reported that nothing but such a fault, or that of an image that is
looked up in its last turn, can end it.
-/

namespace JsxAudit.Resolution

open Audit Data Generation Source

variable {σ : Type} {sv : Services σ} {files : List (String × SourceFile)} {s : Session σ}
  {t : Turn σ} {v : Violation} {subject : Subject} {fix : Fix} {params : Deferred.Params}
  {f : SourceFile} {request : TextRequest} {state : σ}

/-! ### One turn -/

/-- What a turn asks for, and in which state: nothing if its text is known, or not looked up. -/
def Turn.asks? (sv : Services σ) (files : List (String × SourceFile)) (t : Turn σ) :
    Option (TextRequest × σ) :=
  match pending? t.violation, files.lookup t.violation.filePath with
  | some (subject, _, params), some f =>
    match queryFor sv subject t.violation f params t.session with
    | (.error _, _) => none
    | (.ok q, s) =>
      if ((cached? sv.locale q.key s).or q.known).isSome then none else some (q.request, s.state)
  | _, _ => none

/-- A turn that asks is due, and its query has no text that is known. -/
theorem Turn.asks?_eq_some (h : t.asks? sv files = some (request, state)) :
    ∃ subject fix params f q s, Due files t.violation subject fix params f ∧
      queryFor sv subject t.violation f params t.session = (.ok q, s) ∧
      (cached? sv.locale q.key s).or q.known = none ∧ request = q.request ∧ state = s.state := by
  obtain ⟨subject, fix, params, f, due⟩ | ⟨absent, -⟩ := due_or_kept files t.violation
  · unfold asks? at h
    rw [due.pending, due.found] at h
    dsimp only at h
    split at h
    · cases h
    · rename_i q s looked
      split at h
      · cases h
      · rename_i unknown
        cases h
        exact ⟨subject, fix, params, f, q, s, due, looked, by simpa using unknown, rfl, rfl⟩
  · unfold asks? at h
    rcases absent with absent | absent
    · rw [absent] at h
      cases h
    · rw [absent] at h
      cases pending : pending? t.violation <;> rw [pending] at h <;> cases h

/-- What becomes of a violation when its text has been asked for. -/
def decided (subject : Subject) (v : Violation) (fix : Fix) (params : Deferred.Params)
    (f : SourceFile) : Except Failure TextAnswer → Except Fault (Violation × TokenUsage)
  | .ok a =>
    if a.text = "" then (offlineFix subject v fix f).map fun fix => ({ v with fix }, a.usage)
    else .ok ({ v with fix := some (fix.withText (finished subject params a.text)) }, a.usage)
  | .error (.refused _) => (offlineFix subject v fix f).map fun fix => ({ v with fix }, {})
  | .error (.fault fault) => .error fault

/-- A turn that asks is decided by what has been asked for, and leaves the state as that does. -/
theorem Turn.resolveOne_of_asks (h : t.asks? sv files = some (request, state)) :
    ∃ subject fix params f, Due files t.violation subject fix params f ∧
      (resolveOne sv files t.violation t.session).1 =
        decided subject t.violation fix params f (sv.write request state).1 ∧
      (resolveOne sv files t.violation t.session).2.state = (sv.write request state).2 := by
  obtain ⟨subject, fix, params, f, q, s, due, looked, unknown, rfl, rfl⟩ := asks?_eq_some h
  refine ⟨subject, fix, params, f, due, ?_⟩
  rw [due.resolveOne_eq]
  unfold resolveFix
  rw [looked]
  dsimp only
  rw [answer_of_none unknown, ask]
  dsimp only
  rcases sv.write q.request s.state with ⟨(message | fault) | a, state⟩
  · dsimp only [decided]
    cases offlineFix subject t.violation fix f <;> exact ⟨rfl, rfl⟩
  · exact ⟨rfl, rfl⟩
  · dsimp only [decided]
    by_cases empty : a.text = ""
    · simp only [empty, if_true]
      cases offlineFix subject t.violation fix f <;> exact ⟨rfl, trivial⟩
    · simp only [empty, if_false]
      exact ⟨rfl, rfl⟩

/-! ### What ends a run -/

/-- The asking of a turn ends in a fault. -/
def Turn.BreaksOff (sv : Services σ) (files : List (String × SourceFile)) (t : Turn σ)
    (fault : Fault) : Prop :=
  ∃ request state, t.asks? sv files = some (request, state) ∧
    (sv.write request state).1 = .error (.fault fault)

theorem Turn.BreaksOff.resolveOne_eq {fault : Fault} (h : t.BreaksOff sv files fault) :
    (resolveOne sv files t.violation t.session).1 = .error fault := by
  obtain ⟨request, state, asks, written⟩ := h
  obtain ⟨subject, fix, params, f, -, eq, -⟩ := resolveOne_of_asks asks
  rw [eq, written]
  rfl

end JsxAudit.Resolution
