import JsxAudit.Generation.Service
import JsxAudit.Text.Blank
import Mathlib.Data.Nat.Find

/-!
The calls and the pauses of an asking.

An asking is over with the first outcome that is no refusal, or when no attempt is left, and
`Concludes` says what follows from it. Whatever the outcomes are, `persistently` ends in that way.
On the way it calls once for each attempt up to the last, with a pause of one second more each time
between two calls and none behind the last: `persistently_concludes`.

`askAgain` is the loop that its policy describes, and the only one: `Retrying.eq_askAgain`.
-/

namespace JsxAudit.Generation

/-! ### Outcomes -/

def Refused (outcome : Except Failure TextAnswer) : Prop :=
  ∃ message, outcome = .error (.refused message)

/-- Where an asking with the outcomes is over, and what is concluded there. Attempts are counted
from zero. -/
inductive Concludes (outcome : Nat → Except Failure TextAnswer) (retries : Nat) :
    Nat → Conclusion → Prop
  | answered {last : Nat} {answer : TextAnswer} (possible : last ≤ retries)
      (before : ∀ k < last, Refused (outcome k)) (given : outcome last = .ok answer) :
      Concludes outcome retries last
        (.answered { text := Text.trim answer.text, usage := answer.usage })
  | brokenOff {last : Nat} {f : Data.Fault} (possible : last ≤ retries)
      (before : ∀ k < last, Refused (outcome k)) (fault : outcome last = .error (.fault f)) :
      Concludes outcome retries last (.brokenOff f)
  | gaveUp {message : String} (before : ∀ k < retries, Refused (outcome k))
      (refused : outcome retries = .error (.refused message)) :
      Concludes outcome retries retries (.gaveUp (retries + 1) message)

section Concludes

variable {outcome : Nat → Except Failure TextAnswer} {retries last : Nat} {c : Conclusion}

theorem exists_concludes_at (possible : last ≤ retries) (before : ∀ k < last, Refused (outcome k))
    (ended : last = retries ∨ ¬ Refused (outcome last)) : ∃ c, Concludes outcome retries last c := by
  cases ends : outcome last with
  | ok answer => exact ⟨_, .answered possible before ends⟩
  | error f =>
    cases f with
    | fault f => exact ⟨_, .brokenOff possible before ends⟩
    | refused message =>
      obtain rfl := ended.resolve_right fun no => no ⟨message, ends⟩
      exact ⟨_, .gaveUp before ends⟩

/-- With any outcomes an asking is over somewhere. -/
theorem exists_concludes (outcome : Nat → Except Failure TextAnswer) (retries : Nat) :
    ∃ last c, Concludes outcome retries last c := by
  classical
  by_cases some : ∃ k, k < retries ∧ ¬ Refused (outcome k)
  · obtain ⟨possible, ended⟩ := Nat.find_spec some
    refine ⟨Nat.find some, exists_concludes_at (Nat.le_of_lt possible) (fun k less => ?_)
      (.inr ended)⟩
    by_contra no
    exact Nat.find_min some less ⟨Nat.lt_trans less possible, no⟩
  · have all : ∀ k < retries, Refused (outcome k) := by simpa using some
    exact ⟨retries, exists_concludes_at (Nat.le_refl _) all (.inl rfl)⟩

theorem Concludes.possible (h : Concludes outcome retries last c) : last ≤ retries := by
  cases h with
  | answered possible | brokenOff possible => exact possible
  | gaveUp => exact Nat.le_refl _

theorem Concludes.before (h : Concludes outcome retries last c) :
    ∀ k < last, Refused (outcome k) := by
  cases h with
  | answered _ before | brokenOff _ before | gaveUp before => exact before

theorem Concludes.ended (h : Concludes outcome retries last c) :
    last = retries ∨ ¬ Refused (outcome last) := by
  cases h with
  | answered _ _ ends | brokenOff _ _ ends =>
    refine .inr fun ⟨message, refused⟩ => ?_
    rw [ends] at refused
    cases refused
  | gaveUp => exact .inl rfl

theorem Concludes.conclude (h : Concludes outcome retries last c) :
    conclude Text.trim (retries + 1) (outcome last) = c := by
  cases h with
  | answered _ _ ends | brokenOff _ _ ends | gaveUp _ ends =>
    rw [ends]
    rfl

end Concludes

variable {σ : Type} {attempt : σ → Except Failure TextAnswer × σ} {pause : Nat → σ → σ}

/-! ### The loop -/

theorem askAgain_of_refused {s : σ} (h : Refused (attempt s).1) (left wait : Nat) :
    askAgain attempt pause (left + 1) wait s =
      askAgain attempt pause left (wait + 1) (pause wait (attempt s).2) := by
  obtain ⟨message, refused⟩ := h
  rw [askAgain]
  split
  · rename_i same
    rw [same]
  · rename_i other
    exact (other message (attempt s).2 (Prod.ext refused rfl)).elim

theorem askAgain_of_not_refused {s : σ} (h : ¬ Refused (attempt s).1) (left wait : Nat) :
    askAgain attempt pause left wait s = attempt s := by
  cases left with
  | zero => rfl
  | succ left =>
    rw [askAgain]
    split
    · rename_i message _ same
      exact (h ⟨message, by rw [same]⟩).elim
    · rfl

/-- A loop that makes attempts by a policy, the next of which has a number, the first the number
one. Refusals are asked about again until attempt `limit`, whose outcome is the one of the loop.
The first pause is of `start` seconds, and each later one of `increment` seconds more. -/
structure Retrying (limit start increment : Nat) (attempt : σ → Except Failure TextAnswer × σ)
    (pause : Nat → σ → σ) (loop : Nat → σ → Except Failure TextAnswer × σ) : Prop where
  ended : ∀ {s}, ¬ Refused (attempt s).1 → ∀ n, loop n s = attempt s
  stopped : ∀ {n}, limit ≤ n → ∀ s, loop n s = attempt s
  again : ∀ {n s}, 0 < n → n < limit → Refused (attempt s).1 →
    loop n s = loop (n + 1) (pause (start + increment * (n - 1)) (attempt s).2)

/-- The policy leaves no choice. -/
theorem Retrying.eq_askAgain {limit : Nat} {loop : Nat → σ → Except Failure TextAnswer × σ}
    (h : Retrying limit 1 1 attempt pause loop) {left n : Nat} (all : n + left = limit)
    (first : 0 < n) (s : σ) : loop n s = askAgain attempt pause left n s := by
  induction left generalizing n s with
  | zero =>
    have reached : limit ≤ n := Nat.le_of_eq all.symm
    rw [h.stopped reached, askAgain]
  | succ left ih =>
    by_cases refused : Refused (attempt s).1
    · have wait : 1 + 1 * (n - 1) = n := by omega
      rw [h.again first (by omega) refused, ih (by omega) (by omega), wait,
        askAgain_of_refused refused]
    · rw [h.ended refused, askAgain_of_not_refused refused]

theorem retrying_askAgain (limit : Nat) (attempt : σ → Except Failure TextAnswer × σ)
    (pause : Nat → σ → σ) :
    Retrying limit 1 1 attempt pause fun n => askAgain attempt pause (limit - n) n where
  ended := fun refused n => askAgain_of_not_refused refused _ n
  stopped := fun reached s => by rw [Nat.sub_eq_zero_of_le reached, askAgain]
  again := fun {n s} first more refused => by
    have left : limit - n = limit - (n + 1) + 1 := by omega
    have wait : 1 + 1 * (n - 1) = n := by omega
    rw [left, askAgain_of_refused refused, wait]

/-! ### The way to the last attempt -/

/-- The session that an attempt finds when the ones before were refused. -/
def sessionAt (attempt : σ → Except Failure TextAnswer × σ) (pause : Nat → σ → σ) (s : σ) :
    Nat → σ
  | 0 => s
  | k + 1 => pause (k + 1) (attempt (sessionAt attempt pause s k)).2

def outcomeAt (attempt : σ → Except Failure TextAnswer × σ) (pause : Nat → σ → σ) (s : σ)
    (k : Nat) : Except Failure TextAnswer :=
  (attempt (sessionAt attempt pause s k)).1

/-- From any attempt up to the last the loop comes to the last one. The induction is on the attempts
that are left. -/
theorem askAgain_sessionAt {s : σ} {last left k : Nat} (reached : k ≤ last)
    (possible : last ≤ k + left) (before : ∀ j < last, Refused (outcomeAt attempt pause s j))
    (ended : last = k + left ∨ ¬ Refused (outcomeAt attempt pause s last)) :
    askAgain attempt pause left (k + 1) (sessionAt attempt pause s k) =
      attempt (sessionAt attempt pause s last) := by
  induction left generalizing k with
  | zero => rw [askAgain, Nat.le_antisymm reached possible]
  | succ left ih =>
    rcases Nat.eq_or_lt_of_le reached with rfl | earlier
    · exact askAgain_of_not_refused (ended.resolve_left (by omega)) _ _
    · rw [askAgain_of_refused (before k earlier)]
      exact ih (k := k + 1) earlier (by omega) (ended.imp_left (by omega))

/-- The asking ends as its last attempt does. -/
theorem Concludes.askAgain {s : σ} {retries last : Nat} {c : Conclusion}
    (h : Concludes (outcomeAt attempt pause s) retries last c) :
    askAgain attempt pause retries 1 s = attempt (sessionAt attempt pause s last) :=
  askAgain_sessionAt (k := 0) (Nat.zero_le _) (by simpa using h.possible) h.before
    (by simpa using h.ended)

theorem Concludes.persistently {s : σ} {retries last : Nat} {c : Conclusion}
    (h : Concludes (outcomeAt attempt pause s) retries last c) :
    persistently Text.trim retries attempt pause s =
      (c.seen, (attempt (sessionAt attempt pause s last)).2) := by
  unfold Generation.persistently
  rw [h.askAgain]
  exact Prod.ext (congrArg Conclusion.seen h.conclude) rfl

/-! ### The log -/

inductive Event where
  | call
  | sleep (seconds : Nat)
  deriving DecidableEq, Repr

/-- Calls that are written down. -/
def logged (attempt : σ → Except Failure TextAnswer × σ) :
    σ × List Event → Except Failure TextAnswer × (σ × List Event) :=
  fun (s, log) => ((attempt s).1, (attempt s).2, log ++ [.call])

/-- Pauses that are written down. -/
def loggedPause (pause : Nat → σ → σ) : Nat → σ × List Event → σ × List Event :=
  fun seconds (s, log) => (pause seconds s, log ++ [.sleep seconds])

/-- What comes before an attempt: each call before it, and a pause behind each. -/
def eventsBefore (k : Nat) : List Event :=
  (List.range k).flatMap fun j => [.call, .sleep (j + 1)]

theorem sessionAt_logged (s : σ) (log : List Event) (k : Nat) :
    sessionAt (logged attempt) (loggedPause pause) (s, log) k =
      (sessionAt attempt pause s k, log ++ eventsBefore k) := by
  induction k with
  | zero => simp [sessionAt, eventsBefore]
  | succ k ih => simp [sessionAt, ih, logged, loggedPause, eventsBefore, List.range_succ]

theorem outcomeAt_logged (s : σ) (log : List Event) :
    outcomeAt (logged attempt) (loggedPause pause) (s, log) = outcomeAt attempt pause s := by
  funext k
  rw [outcomeAt, sessionAt_logged]
  rfl

/-- An asking of any service, whatever a call and a pause do to the session, is over with some
attempt. It gives what is concluded there, after the calls up to that attempt and the pauses between
them. The loop in it is the one that goes on by the policy of one attempt more than there are
retries and of pauses of one, two and more seconds. -/
theorem persistently_concludes (attempt : σ → Except Failure TextAnswer × σ)
    (pause : Nat → σ → σ) (retries : Nat) (s : σ) :
    (∃ last c, Concludes (outcomeAt attempt pause s) retries last c) ∧
      (∀ last c, Concludes (outcomeAt attempt pause s) retries last c →
        let after := (attempt (sessionAt attempt pause s last)).2
        conclude Text.trim (retries + 1) (askAgain attempt pause retries 1 s).1 = c ∧
        persistently Text.trim retries attempt pause s = (c.seen, after) ∧
        persistently Text.trim retries (logged attempt) (loggedPause pause) (s, []) =
          (c.seen, after, eventsBefore last ++ [.call])) ∧
      ∀ loop, Retrying (retries + 1) 1 1 attempt pause loop →
        loop 1 s = askAgain attempt pause retries 1 s := by
  refine ⟨exists_concludes _ _, fun last c ends => ⟨?_, ends.persistently, ?_⟩, fun loop follows =>
    follows.eq_askAgain (Nat.add_comm _ _) Nat.zero_lt_one s⟩
  · rw [ends.askAgain]
    exact ends.conclude
  · rw [← outcomeAt_logged s []] at ends
    rw [ends.persistently, sessionAt_logged]
    rfl

/-- Outcomes one after the other. -/
def scripted (outcome : Nat → Except Failure TextAnswer) (k : Nat) :
    Except Failure TextAnswer × Nat :=
  (outcome k, k + 1)

/-- Any sequence of outcomes is met by some asking. -/
theorem outcomeAt_scripted (outcome : Nat → Except Failure TextAnswer) :
    outcomeAt (scripted outcome) (fun _ k => k) 0 = outcome := by
  have session : ∀ k, sessionAt (scripted outcome) (fun _ k => k) 0 k = k := fun k => by
    induction k with
    | zero => rfl
    | succ k ih => rw [sessionAt, ih]; rfl
  funext k
  rw [outcomeAt, session]
  rfl

/-- Two refusals, and then an answer with blanks around it. -/
theorem persistently_concludes_recovered :
    let given : TextAnswer := { text := "  Search \n", usage := ⟨2, 1⟩ }
    let ask := scripted fun k => if k < 2 then .error (.refused "HTTP 503") else .ok given
    let wait (_ : Nat) (k : Nat) : Nat := k
    let loop (n : Nat) := askAgain ask wait (3 - n) n
    persistently Text.trim 2 (logged ask) (loggedPause wait) (0, []) =
        (.ok { text := "Search", usage := ⟨2, 1⟩ }, 3,
          [.call, .sleep 1, .call, .sleep 2, .call]) ∧
      Retrying 3 1 1 ask wait loop ∧ loop 1 0 = askAgain ask wait 2 1 0 := by
  intro given ask wait loop
  obtain ⟨_, concludes, loops⟩ := persistently_concludes ask wait 2 0
  have ends : Concludes (outcomeAt ask wait 0) 2 2
      (.answered { text := Text.trim given.text, usage := given.usage }) := by
    rw [outcomeAt_scripted]
    have third : (if 2 < 2 then .error (.refused "HTTP 503") else .ok given :
        Except Failure TextAnswer) = .ok given := rfl
    exact .answered (Nat.le_refl _) (fun k less => ⟨_, if_pos less⟩) third
  have trimmed : Text.trim given.text = "Search" := by decide
  have log : eventsBefore 2 ++ [.call] = [.call, .sleep 1, .call, .sleep 2, .call] := by decide
  rw [trimmed] at ends
  have follows := retrying_askAgain 3 ask wait
  refine ⟨?_, follows, loops loop follows⟩
  rw [← log]
  exact (concludes 2 _ ends).2.2

end JsxAudit.Generation
