import Replay.Proofs.LimiterWait

namespace Replay

namespace Limiter

/-- What a limiter answers to an operation. -/
inductive Answer where
  | admission (r : Except NumberError Bool)
  | wait (r : Except NumberError Int)
  | done

/-- Whether an operation is one of the caller, or one for all callers. -/
def Operation.concerns {α : Type} (caller : Text) : Operation α → Bool
  | allow _ other _ _ => other = caller
  | retryAfter _ other _ => other = caller
  | reset => true

def answer (l : Limiter) : Operation Number → Answer
  | .allow now caller limit window => .admission (l.allow now caller limit window).1
  | .retryAfter now caller window => .wait (l.retryAfter now caller window)
  | .reset => .done

/-- Operations one after the other, each with its answer. -/
def transcript (l : Limiter) : List (Operation Number) → List (Operation Number × Answer)
  | [] => []
  | op :: rest => (op, l.answer op) :: transcript (l.after op) rest

variable {l l' : Limiter} {caller : Text} {op : Operation Number}

theorem spares_of_not_concerns (h : ¬ op.concerns caller = true) : op.Spares caller := by
  cases op with
  | allow now other limit window => exact fun hsame => h (decide_eq_true hsame)
  | retryAfter now other window => trivial
  | reset => exact absurd rfl h

/-- A caller is answered by what is kept of it. -/
theorem answer_congr (hop : op.concerns caller = true) (h : l.times caller = l'.times caller) :
    l.answer op = l'.answer op := by
  cases op with
  | allow now other limit window =>
    obtain rfl : other = caller := by simpa [Operation.concerns] using hop
    have hask := (ask_congr (d := ⟨now, other, limit, window⟩) h).1
    exact congrArg Answer.admission hask
  | retryAfter now other window =>
    obtain rfl : other = caller := by simpa [Operation.concerns] using hop
    rw [answer, answer, retryAfter, retryAfter, h]
  | reset => rfl

/-- What is kept of a caller after an operation follows from what was kept of it before. -/
theorem times_after_congr (op : Operation Number) (h : l.times caller = l'.times caller) :
    (l.after op).times caller = (l'.after op).times caller := by
  by_cases hop : op.concerns caller = true
  · cases op with
    | allow now other limit window =>
      obtain rfl : other = caller := by simpa [Operation.concerns] using hop
      exact (ask_congr (d := ⟨now, other, limit, window⟩) h).2
    | retryAfter now other window => exact h
    | reset => rfl
  · have hspares := spares_of_not_concerns hop
    rw [times_after_of_spares hspares, times_after_of_spares hspares, h]

/-- Limiters that keep the same of a caller answer it alike, one with the operations of other
callers and one without them, and keep the same of it in the end. -/
theorem transcript_filter_of_same (ops : List (Operation Number))
    (h : l.times caller = l'.times caller) :
    (l.transcript ops).filter (fun e => e.1.concerns caller) =
        l'.transcript (ops.filter (Operation.concerns caller)) ∧
      (l.run ops).times caller =
        (l'.run (ops.filter (Operation.concerns caller))).times caller := by
  induction ops generalizing l l' with
  | nil => exact ⟨rfl, h⟩
  | cons op rest ih =>
    by_cases hop : op.concerns caller = true
    · obtain ⟨hanswers, htimes⟩ := ih (times_after_congr op h)
      rw [List.filter_cons_of_pos hop, transcript, transcript, List.filter_cons, if_pos hop]
      exact ⟨by rw [answer_congr hop h, hanswers], htimes⟩
    · have hsame := times_after_of_spares (l := l) (spares_of_not_concerns hop)
      rw [List.filter_cons_of_neg hop, transcript, List.filter_cons, if_neg hop]
      exact ih (hsame.trans h)

/-- Among all operations the answers that a caller is given, and what is kept of it afterwards, are
as if there were only its own operations and the resets. -/
theorem answers_apart (l : Limiter) (caller : Text) (ops : List (Operation Number)) :
    (l.transcript ops).filter (fun e => e.1.concerns caller) =
        l.transcript (ops.filter (Operation.concerns caller)) ∧
      (l.run ops).times caller = (l.run (ops.filter (Operation.concerns caller))).times caller :=
  transcript_filter_of_same ops rfl

end Limiter

end Replay
