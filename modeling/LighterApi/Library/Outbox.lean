import Mathlib.Data.List.Basic

/-!
# Outboxes

A log, oldest entry first, of messages that are put into a queue and sent from it. An
outbox opens with the first entry that passes a test; while it is open, what was sent
and what is still queued make up what was put since (`Open`). Whatever follows, what was
sent is at every moment the first part of what was put (`InOrder`).
-/

namespace LighterApi.Library.Outbox

variable {ε β : Type*}

/-- What follows the first entry that passes the test. -/
def after (mark : ε → Bool) : List ε → List ε
  | [] => []
  | e :: rest => if mark e then rest else after mark rest

/-- The messages put since the outbox opened. -/
def putSince (mark : ε → Bool) (put : ε → Option β) (log : List ε) : List β :=
  (after mark log).filterMap put

def sent (take : ε → Option β) (log : List ε) : List β := log.filterMap take

/-- At every moment, what was sent is the first part of what was put since the opening. -/
def InOrder (mark : ε → Bool) (put take : ε → Option β) (log : List ε) : Prop :=
  ∀ earlier, earlier <+: log → sent take earlier <+: putSince mark put earlier

/-- The outbox is open, and holds what was put and not yet sent. -/
structure Open (mark : ε → Bool) (put take : ε → Option β) (log : List ε) (queue : List β) :
    Prop where
  marked : log.any mark = true
  balance : sent take log ++ queue = putSince mark put log

variable {mark : ε → Bool} {put take : ε → Option β} {log : List ε} {queue : List β} {e : ε}

theorem after_append_of_marked (marked : log.any mark = true) (more : List ε) :
    after mark (log ++ more) = after mark log ++ more := by
  induction log with
  | nil => exact absurd marked (by simp)
  | cons first rest ih =>
    rw [List.cons_append, after, after]
    split
    · rfl
    · rename_i unmarked
      apply ih
      simpa [unmarked] using marked

theorem after_concat_of_unmarked (unmarked : log.any mark = false) (e : ε) :
    after mark (log ++ [e]) = [] := by
  induction log with
  | nil =>
    rw [List.nil_append, after]
    split <;> rfl
  | cons first rest ih =>
    rw [List.any_cons, Bool.or_eq_false_iff] at unmarked
    rw [List.cons_append, after, if_neg (by simp [unmarked.1])]
    exact ih unmarked.2

theorem after_eq_nil (unmarked : log.any mark = false) : after mark log = [] := by
  induction log with
  | nil => rfl
  | cons first rest ih =>
    rw [List.any_cons, Bool.or_eq_false_iff] at unmarked
    rw [after, if_neg (by simp [unmarked.1])]
    exact ih unmarked.2

theorem sent_concat : sent take (log ++ [e]) = sent take log ++ (take e).toList := by
  unfold sent
  rw [List.filterMap_append]
  cases taken : take e with
  | none => simp [taken]
  | some x => simp [taken]

theorem putSince_concat (marked : log.any mark = true) :
    putSince mark put (log ++ [e]) = putSince mark put log ++ (put e).toList := by
  unfold putSince
  rw [after_append_of_marked marked, List.filterMap_append]
  cases added : put e with
  | none => simp [added]
  | some x => simp [added]

theorem putSince_grows : putSince mark put log <+: putSince mark put (log ++ [e]) := by
  cases marked : log.any mark with
  | false =>
    unfold putSince
    rw [after_eq_nil marked]
    exact List.nil_prefix
  | true =>
    rw [putSince_concat marked]
    exact List.prefix_append _ _

/-! ## Messages in order -/

theorem inOrder_nil : InOrder mark put take [] := by
  intro earlier among
  rw [List.prefix_nil.mp among]
  exact List.nil_prefix

theorem InOrder.concat (h : InOrder mark put take log)
    (now : sent take (log ++ [e]) <+: putSince mark put (log ++ [e])) :
    InOrder mark put take (log ++ [e]) := by
  intro earlier among
  rcases List.prefix_concat_iff.mp among with whole | before
  · rw [whole]
    exact now
  · exact h earlier before

/-- An entry that sends nothing keeps the order. -/
theorem InOrder.other (h : InOrder mark put take log) (unsent : take e = none) :
    InOrder mark put take (log ++ [e]) := by
  apply h.concat
  rw [sent_concat, unsent, Option.toList_none, List.append_nil]
  exact (h log List.prefix_rfl).trans putSince_grows

/-! ## The open outbox -/

theorem Open.first_part (h : Open mark put take log queue) : sent take log <+: putSince mark put log :=
  ⟨queue, h.balance⟩

/-- The outbox opens, empty. -/
theorem open_mark (opens : mark e = true) (unmarked : log.any mark = false)
    (unsent : sent take log = []) (other : take e = none) :
    Open mark put take (log ++ [e]) [] := by
  refine ⟨by simp [opens], ?_⟩
  rw [sent_concat, unsent, other]
  unfold putSince
  rw [after_concat_of_unmarked unmarked]
  rfl

theorem Open.other (h : Open mark put take log queue) (unsent : take e = none)
    (unput : put e = none) : Open mark put take (log ++ [e]) queue := by
  refine ⟨by simp [h.marked], ?_⟩
  rw [sent_concat, putSince_concat h.marked, unsent, unput]
  simpa using h.balance

/-- A message is put last into the queue. -/
theorem Open.enters (h : Open mark put take log queue) {x : β} (added : put e = some x)
    (unsent : take e = none) : Open mark put take (log ++ [e]) (queue ++ [x]) := by
  refine ⟨by simp [h.marked], ?_⟩
  rw [sent_concat, putSince_concat h.marked, unsent, added, ← h.balance]
  simp

/-- The first message of the queue is sent. -/
theorem Open.leaves {x : β} (h : Open mark put take log (x :: queue)) (gone : take e = some x)
    (unput : put e = none) : Open mark put take (log ++ [e]) queue := by
  refine ⟨by simp [h.marked], ?_⟩
  rw [sent_concat, putSince_concat h.marked, gone, unput, ← h.balance]
  simp

end LighterApi.Library.Outbox
