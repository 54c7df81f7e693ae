import LighterApi.Library.Transition
import Mathlib.Data.List.Nodup
import Mathlib.Logic.Function.Basic

/-!
# Buffers handed over by a library

Threads call a library that allocates buffers and leaves them to the caller, which copies
what each holds and frees it. Reading or freeing what is not allocated has no step: a thread
that would do it is stuck. If every call frees exactly the buffers it was handed, whatever
they hold (`Careful`), no thread is ever stuck, every buffer is owned by one call in flight,
and a call returns what it makes of its own buffers, however the calls interleave
(`run_owned`).
-/
namespace LighterApi.Library.HandedBuffers
open LighterApi.Library.Transition

/-- A call after the library has returned: it takes the contents of pointers one by one,
nothing of a null pointer, and returns. -/
inductive Code (β ρ : Type*) where
  | done (result : ρ)
  | take (pointer : Option Nat) (next : Option β → Code β ρ)

/-- The buffers a call is handed, and what it does with them. -/
structure Call (β ρ : Type*) where
  buffers : List (Nat × β)
  code : Code β ρ

variable {β ρ κ : Type*}

namespace Code

/-- The code frees exactly these buffers, whatever they hold. -/
def Frees : Code β ρ → List Nat → Prop
  | done _, owned => owned = []
  | take none next, owned => (next none).Frees owned
  | take (some p) next, owned => p ∈ owned ∧ ∀ b, (next (some b)).Frees (owned.erase p)

/-- What the code returns when the buffers hold this. -/
def value (contents : Nat → Option β) : Code β ρ → ρ
  | done result => result
  | take none next => (next none).value contents
  | take (some p) next => (next (contents p)).value contents

/-- Only the buffers that are freed are read. -/
theorem value_congr {code : Code β ρ} {owned : List Nat} {contents contents' : Nat → Option β}
    (frees : code.Frees owned) (live : ∀ p ∈ owned, (contents p).isSome)
    (same : ∀ p ∈ owned, contents p = contents' p) :
    code.value contents = code.value contents' := by
  induction code generalizing owned with
  | done result => rfl
  | take pointer next ih =>
    cases pointer with
    | none => exact ih none frees live same
    | some p =>
      obtain ⟨b, held⟩ := Option.isSome_iff_exists.mp (live p frees.1)
      have held' := (same p frees.1).symm.trans held
      rw [value, value, held, held']
      exact ih (some b) (frees.2 b) (fun q member => live q (List.mem_of_mem_erase member))
        fun q member => same q (List.mem_of_mem_erase member)

end Code

namespace Call

def addresses (c : Call β ρ) : List Nat := c.buffers.map Prod.fst

def contents (c : Call β ρ) (p : Nat) : Option β :=
  (c.buffers.find? fun buffer => buffer.1 = p).map Prod.snd

/-- What the call makes of its own buffers. -/
def value (c : Call β ρ) : ρ := c.code.value c.contents

def Careful (c : Call β ρ) : Prop := c.code.Frees c.addresses

theorem contents_isSome {c : Call β ρ} {p : Nat} : (c.contents p).isSome ↔ p ∈ c.addresses := by
  simp [contents, addresses, List.find?_isSome]

theorem contents_of_mem {c : Call β ρ} (distinct : c.addresses.Nodup) {p : Nat} {b : β}
    (member : (p, b) ∈ c.buffers) : c.contents p = some b := by
  obtain ⟨⟨q, b'⟩, found⟩ : ∃ buffer, c.buffers.find? (fun buffer => buffer.1 = p) = some buffer :=
    Option.isSome_iff_exists.mp (List.find?_isSome.mpr ⟨_, member, by simp⟩)
  obtain rfl : q = p := by simpa using List.find?_some found
  have same := List.inj_on_of_nodup_map distinct (List.mem_of_find?_eq_some found) member rfl
  obtain ⟨-, rfl⟩ := Prod.mk.inj same
  rw [contents, found]
  rfl

end Call

structure State (β ρ : Type*) where
  heap : Nat → Option β
  /-- The call a thread is in, with what is left of it. -/
  threads : Nat → Option (Call β ρ × Code β ρ)
  /-- Latest first; no step reads it. -/
  returned : List (Call β ρ × ρ)

def State.start : State β ρ := ⟨fun _ => none, fun _ => none, []⟩

inductive Action (κ : Type*) where
  | call (t : Nat) (k : κ)
  | take (t : Nat)
  | leave (t : Nat)

variable (program : κ → Call β ρ)

/-- The library hands over buffers that are not allocated yet. -/
def step (s : State β ρ) : Action κ → Option (State β ρ)
  | .call t k =>
    match s.threads t with
    | none =>
      let c := program k
      if c.addresses.Nodup ∧ ∀ p ∈ c.addresses, (s.heap p).isNone then
        some { s with
          heap := fun p => (c.contents p).or (s.heap p)
          threads := Function.update s.threads t (some (c, c.code)) }
      else none
    | some _ => none
  | .take t =>
    match s.threads t with
    | some (c, .take none next) =>
      some { s with threads := Function.update s.threads t (some (c, next none)) }
    | some (c, .take (some p) next) =>
      (s.heap p).map fun b =>
        { s with
          heap := Function.update s.heap p none
          threads := Function.update s.threads t (some (c, next (some b))) }
    | _ => none
  | .leave t =>
    match s.threads t with
    | some (c, .done result) =>
      some { s with
        threads := Function.update s.threads t none
        returned := (c, result) :: s.returned }
    | _ => none

/-- A call of the program, handed buffers of different addresses. -/
def Handed (c : Call β ρ) : Prop := (∃ k, c = program k) ∧ c.addresses.Nodup

/-- A thread has the buffers it has still to free, and goes on to what its call is to return. -/
def Holds (heap : Nat → Option β) (owned : List Nat) : Option (Call β ρ × Code β ρ) → Prop
  | none => owned = []
  | some (c, left) => left.Frees owned ∧ Handed program c ∧ left.value heap = c.value

/-- Every allocated buffer has one owner, and every call that returned returned its value. -/
structure Owned (s : State β ρ) (owned : Nat → List Nat) : Prop where
  holds : ∀ t, Holds program s.heap (owned t) (s.threads t)
  nodup : ∀ t, (owned t).Nodup
  apart : ∀ t u p, p ∈ owned t → p ∈ owned u → t = u
  live : ∀ p, (s.heap p).isSome ↔ ∃ t, p ∈ owned t
  returned : ∀ c r, (c, r) ∈ s.returned → Handed program c ∧ r = c.value

variable {program} {s s' : State β ρ} {owned : Nat → List Nat}

/-- A thread is not concerned by what happens to the buffers of others. -/
theorem Holds.frame {heap heap' : Nat → Option β} {mine : List Nat}
    {thread : Option (Call β ρ × Code β ρ)} (h : Holds program heap mine thread)
    (live : ∀ p ∈ mine, (heap p).isSome) (same : ∀ p ∈ mine, heap p = heap' p) :
    Holds program heap' mine thread := by
  cases thread with
  | none => exact h
  | some running => exact ⟨h.1, h.2.1, (Code.value_congr h.1 live same).symm.trans h.2.2⟩

theorem Owned.live_of (h : Owned program s owned) (t : Nat) : ∀ p ∈ owned t, (s.heap p).isSome :=
  fun p member => (h.live p).mpr ⟨t, member⟩

/-- After an update of its owner and of the heap, a thread's buffers are its own again. -/
theorem update_apart (h : Owned program s owned) {t : Nat} {mine : List Nat}
    (fresh : ∀ u p, u ≠ t → p ∈ mine → p ∉ owned u) :
    ∀ u v p, p ∈ Function.update owned t mine u → p ∈ Function.update owned t mine v → u = v := by
  intro u v p member member'
  by_cases first : u = t
  · by_cases second : v = t
    · rw [first, second]
    · rw [first, Function.update_self] at member
      rw [Function.update_of_ne second] at member'
      exact absurd member' (fresh v p second member)
  · rw [Function.update_of_ne first] at member
    by_cases second : v = t
    · rw [second, Function.update_self] at member'
      exact absurd member (fresh u p first member')
    · rw [Function.update_of_ne second] at member'
      exact h.apart u v p member member'

theorem Owned.call (h : Owned program s owned) {t : Nat} {c : Call β ρ} (k : κ) (named : c = program k)
    (careful : c.Careful)
    (idle : s.threads t = none) (distinct : c.addresses.Nodup)
    (fresh : ∀ p ∈ c.addresses, (s.heap p).isNone) :
    Owned program { s with
        heap := fun p => (c.contents p).or (s.heap p)
        threads := Function.update s.threads t (some (c, c.code)) }
      (Function.update owned t c.addresses) := by
  have none_owned : owned t = [] := by
    have holds := h.holds t
    rwa [idle] at holds
  have foreign : ∀ u, ∀ p ∈ owned u, c.contents p = none := by
    intro u p member
    rw [← Option.not_isSome_iff_eq_none, Call.contents_isSome]
    intro mine
    have live := h.live_of u p member
    rw [Option.isNone_iff_eq_none.mp (fresh p mine)] at live
    cases live
  refine ⟨fun u => ?_, fun u => ?_, ?_, fun p => ?_, h.returned⟩
  · by_cases here : u = t
    · subst here
      simp only [Function.update_self]
      refine ⟨careful, ⟨⟨k, named⟩, distinct⟩,
        (Code.value_congr careful (fun p => Call.contents_isSome.mpr) ?_).symm⟩
      intro p member
      obtain ⟨b, held⟩ := Option.isSome_iff_exists.mp (Call.contents_isSome.mpr member)
      simp [held]
    · simp only [Function.update_of_ne here]
      refine (h.holds u).frame (h.live_of u) fun p member => ?_
      rw [foreign u p member, Option.none_or]
  · by_cases here : u = t
    · rw [here, Function.update_self]
      exact distinct
    · rw [Function.update_of_ne here]
      exact h.nodup u
  · refine update_apart h fun u p _ mine theirs => ?_
    have unknown := foreign u p theirs
    rw [← Option.not_isSome_iff_eq_none, Call.contents_isSome] at unknown
    exact unknown mine
  · simp only [Option.isSome_or, Bool.or_eq_true, Call.contents_isSome, h.live]
    constructor
    · rintro (mine | ⟨u, theirs⟩)
      · exact ⟨t, by rwa [Function.update_self]⟩
      · have here : u ≠ t := fun same => by simp [same, none_owned] at theirs
        exact ⟨u, by rwa [Function.update_of_ne here]⟩
    · rintro ⟨u, member⟩
      by_cases here : u = t
      · rw [here, Function.update_self] at member
        exact Or.inl member
      · rw [Function.update_of_ne here] at member
        exact Or.inr ⟨u, member⟩

theorem Owned.free (h : Owned program s owned) {t p : Nat} {c : Call β ρ} {next : Option β → Code β ρ} {b : β}
    (running : s.threads t = some (c, .take (some p) next)) (held : s.heap p = some b) :
    Owned program { s with
        heap := Function.update s.heap p none
        threads := Function.update s.threads t (some (c, next (some b))) }
      (Function.update owned t ((owned t).erase p)) := by
  have holds := h.holds t
  rw [running] at holds
  obtain ⟨⟨mine, frees⟩, handed, value⟩ := holds
  have left : ∀ q ∈ (owned t).erase p, q ≠ p ∧ q ∈ owned t :=
    fun q member => ((h.nodup t).mem_erase_iff).mp member
  refine ⟨fun u => ?_, fun u => ?_, ?_, fun q => ?_, h.returned⟩
  · by_cases here : u = t
    · subst here
      simp only [Function.update_self]
      refine ⟨frees b, handed, ?_⟩
      rw [Code.value, held] at value
      rw [← value]
      refine (Code.value_congr (frees b) (fun q member => h.live_of u q (left q member).2) ?_).symm
      intro q member
      rw [Function.update_of_ne (left q member).1]
    · simp only [Function.update_of_ne here]
      refine (h.holds u).frame (h.live_of u) fun q member => ?_
      have other : q ≠ p := fun same => here (h.apart u t p (same ▸ member) mine)
      rw [Function.update_of_ne other]
  · by_cases here : u = t
    · rw [here, Function.update_self]
      exact (h.nodup t).erase p
    · rw [Function.update_of_ne here]
      exact h.nodup u
  · exact update_apart h fun u q here member theirs => here (h.apart u t q theirs (left q member).2)
  · by_cases same : q = p
    · subst same
      simp only [Function.update_self, Option.isSome_none, Bool.false_eq_true, false_iff]
      rintro ⟨u, member⟩
      by_cases here : u = t
      · rw [here, Function.update_self] at member
        exact (left q member).1 rfl
      · rw [Function.update_of_ne here] at member
        exact here (h.apart u t q member mine)
    · simp only [Function.update_of_ne same, h.live]
      constructor
      · rintro ⟨u, member⟩
        refine ⟨u, ?_⟩
        by_cases here : u = t
        · subst here
          rw [Function.update_self]
          exact ((h.nodup u).mem_erase_iff).mpr ⟨same, member⟩
        · rwa [Function.update_of_ne here]
      · rintro ⟨u, member⟩
        by_cases here : u = t
        · rw [here, Function.update_self] at member
          exact ⟨t, (left q member).2⟩
        · rw [Function.update_of_ne here] at member
          exact ⟨u, member⟩

/-- A thread that goes on without the heap, with no buffer gained or lost. -/
theorem Owned.goOn (h : Owned program s owned) {t : Nat} {thread : Option (Call β ρ × Code β ρ)}
    {returned : List (Call β ρ × ρ)} (holds : Holds program s.heap (owned t) thread)
    (values : ∀ c r, (c, r) ∈ returned → Handed program c ∧ r = c.value) :
    Owned program { s with threads := Function.update s.threads t thread, returned } owned := by
  refine ⟨fun u => ?_, h.nodup, h.apart, h.live, values⟩
  by_cases here : u = t
  · subst here
    simpa only [Function.update_self] using holds
  · simpa only [Function.update_of_ne here] using h.holds u

theorem step_owned {a : Action κ} (careful : ∀ k, (program k).Careful) (h : Owned program s owned)
    (taken : step program s a = some s') : ∃ owned', Owned program s' owned' := by
  cases a with
  | call t k =>
    simp only [step] at taken
    split at taken
    · rename_i idle
      obtain ⟨⟨distinct, fresh⟩, taken⟩ := Option.ite_none_right_eq_some.mp taken
      obtain rfl := Option.some.inj taken
      exact ⟨_, h.call k rfl (careful k) idle distinct fresh⟩
    · cases taken
  | take t =>
    simp only [step] at taken
    have holds := h.holds t
    split at taken
    · rename_i running
      obtain rfl := Option.some.inj taken
      rw [running] at holds
      exact ⟨_, h.goOn holds h.returned⟩
    · rename_i running
      obtain ⟨b, held, rfl⟩ := Option.map_eq_some_iff.mp taken
      exact ⟨_, h.free running held⟩
    · cases taken
  | leave t =>
    simp only [step] at taken
    have holds := h.holds t
    split at taken
    · rename_i c result running
      obtain rfl := Option.some.inj taken
      rw [running] at holds
      refine ⟨_, h.goOn holds.1 fun c' r member => ?_⟩
      rcases List.mem_cons.mp member with new | before
      · obtain ⟨rfl, rfl⟩ := Prod.mk.inj new
        exact holds.2
      · exact h.returned c' r before
    · cases taken

theorem run_owned {actions : List (Action κ)} (careful : ∀ k, (program k).Careful)
    (reached : run (step program) State.start actions = some s) :
    ∃ owned, Owned program s owned := by
  have started : ∃ owned, Owned program (State.start : State β ρ) owned := by
    refine ⟨fun _ => [], fun _ => rfl, fun _ => List.nodup_nil, nofun, fun p => ?_, nofun⟩
    simp [State.start]
  exact run_invariant (I := fun s => ∃ owned, Owned program s owned)
    (fun _ _ _ ⟨_, h⟩ taken => step_owned careful h taken) started reached

/-- A thread inside a call is never stuck at a buffer. -/
theorem Owned.ready (h : Owned program s owned) {t : Nat} (busy : s.threads t ≠ none) :
    (step program s (.take t)).isSome ∨ (step program s (.leave t)).isSome := by
  obtain ⟨⟨c, left⟩, running⟩ := Option.ne_none_iff_exists'.mp busy
  have holds := h.holds t
  rw [running] at holds
  cases left with
  | done result => exact Or.inr (by simp [step, running])
  | take pointer next =>
    refine Or.inl ?_
    cases pointer with
    | none => simp [step, running]
    | some p =>
      obtain ⟨b, held⟩ := Option.isSome_iff_exists.mp (h.live_of t p holds.1.1)
      simp [step, running, held]

/-- When no call is in flight, nothing is allocated. -/
theorem Owned.empty (h : Owned program s owned) (idle : ∀ t, s.threads t = none) (p : Nat) :
    s.heap p = none := by
  rw [← Option.not_isSome_iff_eq_none, h.live]
  rintro ⟨t, member⟩
  have holds := h.holds t
  rw [idle t] at holds
  rw [show owned t = [] from holds] at member
  cases member

end LighterApi.Library.HandedBuffers
