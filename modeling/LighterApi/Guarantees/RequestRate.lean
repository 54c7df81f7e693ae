import Mathlib.Data.Finset.Card
import Mathlib.Data.Finset.Range
import LighterApi.Library.Spacing
import LighterApi.Source.Throttle

/-!
# The request rate of a REST client

The mutex is held from the first reading of the clock to the stamp, so the passes of all
threads are an interval apart. The request itself starts after the mutex was released, as
late as the scheduler likes: what was let pass before a window opened may fall into it,
one request of each thread. The rate over any window is bounded with that allowance.
-/
namespace LighterApi.Guarantees.RequestRate
open LighterApi.Library.Transition LighterApi.Library.Spacing LighterApi.Source.Throttle

/-- The stages in which a thread holds the mutex. -/
def holdsMtx : Stage → Bool
  | .locked | .measured _ | .sleeping _ | .awake => true
  | .idle | .waiting | .passed => false

/-- What the thread in `throttle` has made sure of about the time. -/
def Timed (interval last now : Nat) : Stage → Prop
  | .measured elapsed => last + elapsed ≤ now
  | .sleeping wakesAt => last + interval ≤ wakesAt
  | .awake => last + interval ≤ now
  | _ => True

theorem Timed.later {interval last now later : Nat} {stage : Stage}
    (timed : Timed interval last now stage) (le : now ≤ later) : Timed interval last later stage := by
  cases stage with
  | measured elapsed => exact Nat.le_trans timed le
  | awake => exact Nat.le_trans timed le
  | sleeping wakesAt => exact timed
  | _ => exact trivial

theorem timed_of_free {interval last now : Nat} {stage : Stage} (free : holdsMtx stage = false) :
    Timed interval last now stage := by
  cases stage <;> first | exact trivial | exact absurd free (by simp [holdsMtx])

/-- One thread holds the mutex, and the passes it let through are an interval apart. -/
structure Gated (interval : Nat) (s : State) : Prop where
  held : ∀ t, holdsMtx (s.threads t) = true → s.throttleMtx = some t
  timed : ∀ t, Timed interval s.lastRequestAt s.now (s.threads t)
  past : s.lastRequestAt ≤ s.now
  stamped : ∀ p ∈ s.passes, p ≤ s.lastRequestAt
  spaced : Spaced interval s.passes

variable {interval callers : Nat} {s s' : State}

theorem gated_start (now : Nat) : Gated interval (.start now) where
  held t holds := absurd holds (by simp [State.start, holdsMtx])
  timed _ := trivial
  past := Nat.zero_le now
  stamped p member := absurd member List.not_mem_nil
  spaced := List.Pairwise.nil

/-- A thread moves on inside its section, or outside all of them. -/
theorem Gated.goto (g : Gated interval s) {t : Nat} {stage : Stage}
    (held : holdsMtx stage = true → s.throttleMtx = some t)
    (timed : Timed interval s.lastRequestAt s.now stage) : Gated interval (s.goto t stage) where
  held u holds := by
    by_cases here : u = t
    · subst here
      exact held (by simpa [State.goto] using holds)
    · exact g.held u (by simpa [State.goto, here] using holds)
  timed u := by
    by_cases here : u = t
    · subst here
      simpa [State.goto] using timed
    · simpa [State.goto, here] using g.timed u
  past := g.past
  stamped := g.stamped
  spaced := g.spaced

theorem Gated.lock (g : Gated interval s) {t : Nat} (free : s.throttleMtx = none) :
    Gated interval { s.goto t .locked with throttleMtx := some t } where
  held u holds := by
    by_cases here : u = t
    · rw [here]
    · have owned := g.held u (by simpa [State.goto, here] using holds)
      rw [free] at owned
      exact absurd owned (by simp)
  timed u := by
    by_cases here : u = t
    · simp [State.goto, here, Timed]
    · simpa [State.goto, here] using g.timed u
  past := g.past
  stamped := g.stamped
  spaced := g.spaced

/-- No other thread is inside when the pass is stamped. -/
theorem Gated.stamp (g : Gated interval s) {t : Nat} (awake : s.threads t = .awake) :
    Gated interval { s.goto t .passed with
      lastRequestAt := s.now, throttleMtx := none, passes := s.now :: s.passes } := by
  have outside : ∀ u, holdsMtx (Function.update s.threads t .passed u) = false := by
    intro u
    by_cases here : u = t
    · simp [here, holdsMtx]
    · rw [Function.update_of_ne here]
      by_contra holds
      have mine := g.held t (by rw [awake]; rfl)
      have theirs := g.held u (by simpa using holds)
      rw [mine] at theirs
      exact here (Option.some.inj theirs).symm
  have waited : s.lastRequestAt + interval ≤ s.now := by
    have timed := g.timed t
    rw [awake] at timed
    exact timed
  refine ⟨fun u holds => ?_, fun u => timed_of_free (outside u), Nat.le_refl _, ?_, ?_⟩
  · exact absurd holds (by simp [State.goto, outside u])
  · intro p member
    rcases List.mem_cons.mp member with rfl | member
    · exact Nat.le_refl _
    · exact Nat.le_trans (g.stamped p member) g.past
  · refine g.spaced.cons fun p member => ?_
    have before := g.stamped p member
    omega

/-- What a step does to the mutex, to the clock and to the recorded times. -/
inductive Moves (interval callers : Nat) (s : State) : State → Prop
  | ticks (elapsed : Nat) : Moves interval callers s { s with now := s.now + elapsed }
  | goes (t : Nat) (stage : Stage) (used : s.threads t = .idle → t < callers)
      (before : s.threads t ≠ .passed) (after : stage ≠ .passed)
      (inside : holdsMtx stage = true → holdsMtx (s.threads t) = true)
      (timed : s.lastRequestAt ≤ s.now → Timed interval s.lastRequestAt s.now (s.threads t) →
        Timed interval s.lastRequestAt s.now stage) :
      Moves interval callers s (s.goto t stage)
  | locks (t : Nat) (waiting : s.threads t = .waiting) (free : s.throttleMtx = none) :
      Moves interval callers s { s.goto t .locked with throttleMtx := some t }
  | stamps (t : Nat) (awake : s.threads t = .awake) :
      Moves interval callers s { s.goto t .passed with
        lastRequestAt := s.now, throttleMtx := none, passes := s.now :: s.passes }
  | requests (t : Nat) (passed : s.threads t = .passed) :
      Moves interval callers s { s.goto t .idle with requests := s.now :: s.requests }

theorem step_moves {a : Action} (taken : step interval callers s a = some s') :
    Moves interval callers s s' := by
  cases a with
  | tick elapsed =>
    obtain rfl := Option.some.inj taken
    exact .ticks elapsed
  | call t =>
    obtain ⟨⟨used, idle⟩, rfl⟩ := Option.ite_some_none_eq_some.mp taken
    exact .goes t .waiting (fun _ => used) (by simp [idle]) (by simp) (by simp [holdsMtx])
      fun _ _ => trivial
  | lock t =>
    obtain ⟨⟨waiting, free⟩, rfl⟩ := Option.ite_some_none_eq_some.mp taken
    exact .locks t waiting free
  | measure t =>
    obtain ⟨locked, rfl⟩ := Option.ite_some_none_eq_some.mp taken
    refine .goes t _ (by simp [locked]) (by simp [locked]) (by simp) (by simp [locked, holdsMtx]) ?_
    intro past _
    simp only [Timed]
    omega
  | compare t =>
    simp only [step] at taken
    split at taken
    · rename_i elapsed measured
      obtain rfl := Option.some.inj taken
      refine .goes t _ (by simp [measured]) (by simp [measured]) ?_ (by simp [measured, holdsMtx]) ?_
      · split <;> simp
      · intro _ timed
        rw [measured, Timed] at timed
        split
        · simp only [Timed]
          omega
        · simp only [Timed]
          omega
    · exact absurd taken (by simp)
  | wake t =>
    simp only [step] at taken
    split at taken
    · rename_i wakesAt sleeping
      obtain ⟨due, rfl⟩ := Option.ite_some_none_eq_some.mp taken
      refine .goes t _ (by simp [sleeping]) (by simp [sleeping]) (by simp)
        (by simp [sleeping, holdsMtx]) ?_
      intro _ timed
      rw [sleeping, Timed] at timed
      exact Nat.le_trans timed due
    · exact absurd taken (by simp)
  | stamp t =>
    obtain ⟨awake, rfl⟩ := Option.ite_some_none_eq_some.mp taken
    exact .stamps t awake
  | request t =>
    obtain ⟨passed, rfl⟩ := Option.ite_some_none_eq_some.mp taken
    exact .requests t passed

theorem step_gated {a : Action} (g : Gated interval s) (taken : step interval callers s a = some s') :
    Gated interval s' := by
  cases step_moves taken with
  | ticks elapsed =>
    exact ⟨g.held, fun t => (g.timed t).later (Nat.le_add_right _ _),
      Nat.le_trans g.past (Nat.le_add_right _ _), g.stamped, g.spaced⟩
  | goes t stage used before after inside timed =>
    exact g.goto (fun holds => g.held t (inside holds)) (timed g.past (g.timed t))
  | locks t waiting free => exact g.lock free
  | stamps t awake => exact g.stamp awake
  | requests t passed =>
    have after : Gated interval (s.goto t .idle) := g.goto (by simp [holdsMtx]) trivial
    exact ⟨after.held, after.timed, after.past, after.stamped, after.spaced⟩

/-! ## Requests and passes -/

/-- The threads that were let pass and have not sent their request. -/
def pending (callers : Nat) (s : State) : Finset Nat :=
  (Finset.range callers).filter fun t => s.threads t = .passed

theorem pending_goto_subset (callers : Nat) (s : State) (t : Nat) {stage : Stage} (after : stage ≠ .passed) :
    pending callers (s.goto t stage) ⊆ (pending callers s).erase t := by
  intro u member
  obtain ⟨used, passed⟩ := Finset.mem_filter.mp member
  by_cases here : u = t
  · subst here
    exact absurd (by simpa [State.goto] using passed) after
  · exact Finset.mem_erase.mpr ⟨here, Finset.mem_filter.mpr
      ⟨used, by simpa [State.goto, here] using passed⟩⟩

theorem pending_goto_passed (callers : Nat) (s : State) (t : Nat) :
    pending callers (s.goto t .passed) ⊆ insert t (pending callers s) := by
  intro u member
  obtain ⟨used, passed⟩ := Finset.mem_filter.mp member
  by_cases here : u = t
  · exact here ▸ Finset.mem_insert_self u _
  · exact Finset.mem_insert_of_mem (Finset.mem_filter.mpr
      ⟨used, by simpa [State.goto, here] using passed⟩)

theorem pending_card_le (callers : Nat) (s : State) : (pending callers s).card ≤ callers :=
  (Finset.card_filter_le _ _).trans_eq (Finset.card_range callers)

/-- The requests in a window, with those pending while it is open, come from the passes in
it and from at most one pass of each thread before it. -/
structure Accounted (callers opens length : Nat) (s : State) : Prop where
  used : ∀ t, s.threads t ≠ .idle → t < callers
  past : ∀ r ∈ s.requests, r ≤ s.now
  while_open : s.now < opens + length →
    within opens length s.requests + (pending callers s).card ≤
      within opens length s.passes + callers
  always : within opens length s.requests ≤ within opens length s.passes + callers

variable {opens length : Nat}

theorem accounted_start (now : Nat) : Accounted callers opens length (.start now) where
  used t busy := absurd rfl busy
  past r member := absurd member List.not_mem_nil
  while_open _ := by
    have bound := pending_card_le callers (.start now)
    simpa [State.start, within] using bound
  always := by simp [State.start, within]

/-- A thread that neither passes nor sends changes no count. -/
theorem Accounted.goto (acc : Accounted callers opens length s) {t : Nat} {stage : Stage}
    (used : s.threads t = .idle → t < callers) (after : stage ≠ .passed) :
    Accounted callers opens length (s.goto t stage) where
  used u busy := by
    by_cases here : u = t
    · subst here
      by_cases idle : s.threads u = .idle
      · exact used idle
      · exact acc.used u idle
    · exact acc.used u (by simpa [State.goto, here] using busy)
  past := acc.past
  while_open opened := by
    have fewer := Finset.card_le_card
      ((pending_goto_subset callers s t after).trans (Finset.erase_subset t _))
    exact (Nat.add_le_add_left fewer _).trans (acc.while_open opened)
  always := acc.always

theorem Accounted.stamp (acc : Accounted callers opens length s) {t : Nat}
    (busy : s.threads t ≠ .idle) :
    Accounted callers opens length { s.goto t .passed with
      lastRequestAt := s.now, throttleMtx := none, passes := s.now :: s.passes } where
  used u busy' := by
    by_cases here : u = t
    · exact here ▸ acc.used t busy
    · exact acc.used u (by simpa [State.goto, here] using busy')
  past := acc.past
  while_open opened := by
    have bound := pending_card_le callers (s.goto t .passed)
    have more := Finset.card_le_card (pending_goto_passed callers s t)
    have inserted := Finset.card_insert_le t (pending callers s)
    have before := acc.while_open opened
    have same : pending callers { s.goto t .passed with
        lastRequestAt := s.now, throttleMtx := none, passes := s.now :: s.passes } =
      pending callers (s.goto t .passed) := rfl
    rw [same, within_cons]
    simp only [State.goto] at opened ⊢ bound more
    split
    · omega
    · -- The window has not opened, so nothing was sent in it.
      have none_sent : within opens length s.requests = 0 :=
        within_eq_zero fun r member => by
          have sent := acc.past r member
          omega
      omega
  always := by
    have before := acc.always
    rw [within_cons]
    exact before.trans (by omega)

theorem Accounted.request (acc : Accounted callers opens length s) {t : Nat}
    (passed : s.threads t = .passed) :
    Accounted callers opens length { s.goto t .idle with requests := s.now :: s.requests } := by
  have used : t < callers := acc.used t (by simp [passed])
  have mine : t ∈ pending callers s :=
    Finset.mem_filter.mpr ⟨Finset.mem_range.mpr used, passed⟩
  have fewer : (pending callers (s.goto t .idle)).card + 1 ≤ (pending callers s).card := by
    have left : Stage.idle ≠ .passed := by decide
    have subset := Finset.card_le_card (pending_goto_subset callers s t left)
    rw [Finset.card_erase_of_mem mine] at subset
    have pos := Finset.card_pos.mpr ⟨t, mine⟩
    omega
  have same : pending callers { s.goto t .idle with requests := s.now :: s.requests } =
    pending callers (s.goto t .idle) := rfl
  refine ⟨fun u busy => ?_, fun r member => ?_, fun opened => ?_, ?_⟩
  · by_cases here : u = t
    · exact here ▸ used
    · exact acc.used u (by simpa [State.goto, here] using busy)
  · rcases List.mem_cons.mp member with rfl | member
    · exact Nat.le_refl _
    · exact acc.past r member
  · have before := acc.while_open opened
    rw [same, within_cons]
    simp only [State.goto] at fewer ⊢
    split <;> omega
  · rw [within_cons]
    split
    · rename_i inside
      have before := acc.while_open inside.2
      have sends := Finset.card_pos.mpr ⟨t, mine⟩
      simp only [State.goto]
      omega
    · exact acc.always

theorem step_accounted {a : Action} (acc : Accounted callers opens length s)
    (taken : step interval callers s a = some s') : Accounted callers opens length s' := by
  cases step_moves taken with
  | ticks elapsed =>
    exact ⟨acc.used, fun r member => Nat.le_trans (acc.past r member) (Nat.le_add_right _ _),
      fun opened => acc.while_open (Nat.lt_of_le_of_lt (Nat.le_add_right _ _) opened), acc.always⟩
  | goes t stage used before after inside timed => exact acc.goto used after
  | locks t waiting free =>
    have after : Accounted callers opens length (s.goto t .locked) :=
      acc.goto (fun idle => absurd idle (by simp [waiting])) (by simp)
    exact ⟨after.used, after.past, after.while_open, after.always⟩
  | stamps t awake => exact acc.stamp (by simp [awake])
  | requests t passed => exact acc.request passed

theorem minRequestInterval_pos (tier : Option Int) : 0 < minRequestInterval tier := by
  unfold minRequestInterval
  split
  · split
    · omega
    · decide
  · decide

/-- However the threads that share a client interleave, its passes are an interval apart,
and any window holds no more requests than the passes that fit into it and one a thread. -/
theorem request_rate (tier : Option Int) (callers now : Nat) (actions : List Action) (s : State)
    (reached : run (step (minRequestInterval tier) callers) (.start now) actions = some s)
    (opens length : Nat) :
    Spaced (minRequestInterval tier) s.passes ∧
      within opens length s.requests * minRequestInterval tier <
        length + (callers + 1) * minRequestInterval tier := by
  have gated : Gated (minRequestInterval tier) s :=
    run_invariant (fun _ _ _ g taken => step_gated g taken) (gated_start now) reached
  have accounted : Accounted callers opens length s :=
    run_invariant (fun _ _ _ acc taken => step_accounted acc taken) (accounted_start now) reached
  refine ⟨gated.spaced, ?_⟩
  have passes := gated.spaced.count_window (minRequestInterval_pos tier) opens length
  have requests := Nat.mul_le_mul_right (minRequestInterval tier) accounted.always
  rw [Nat.add_mul] at requests
  rw [Nat.succ_mul]
  omega

/-- A thread whose first request is delayed sends two at one moment. -/
def delayed : List Action :=
  [.call 0, .lock 0, .measure 0, .compare 0, .stamp 0, .tick 100000000, .request 0,
    .call 0, .lock 0, .measure 0, .compare 0, .stamp 0, .request 0]

theorem request_rate_delayed :
    ∃ s, run (step (minRequestInterval (some 100)) 1) (.start 5000000000) delayed = some s ∧
      s.requests = [5100000000, 5100000000] ∧
      within 5100000000 1 s.requests * 100000000 < 1 + 2 * 100000000 := by
  have computed : ∃ s, run (step (minRequestInterval (some 100)) 1) (.start 5000000000) delayed =
      some s ∧ s.requests = [5100000000, 5100000000] :=
    exists_run (P := fun s : State => s.requests = [5100000000, 5100000000]) (by decide +kernel)
  obtain ⟨s, reached, sent⟩ := computed
  exact ⟨s, reached, sent, (request_rate (some 100) 1 5000000000 delayed s reached 5100000000 1).2⟩

end LighterApi.Guarantees.RequestRate
