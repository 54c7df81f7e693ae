import LighterApi.Guarantees.WireAgreement

/-!
# A throwing token provider and the pending channels

A flush moves every pending channel to the confirmed list and only then builds the
frames, one token after the other. The first token that throws ends it: the channel and
all behind it are confirmed, pending no more, and have no frame. So a flush loses nothing
exactly when the provider has a token, the empty one included, for every pending channel.
-/
namespace LighterApi.Guarantees.LostSubscriptions
open LighterApi.Source LighterApi.Source.WsSession
open LighterApi.Library.Transition SessionLink WireAgreement

/-- The frame was built between the two states. -/
def Produces (s s' : State) (frame : Frame) : Prop :=
  ∃ events, s'.trace = events ++ s.trace ∧ .enqueued frame ∈ events

/-- The frame is in the outbound queue, or was taken from it and is being written. -/
def Outgoing (s : State) (frame : Frame) : Prop :=
  frame ∈ s.outboundQueue ∨ .write s.generation frame ∈ s.ops

/-- Each pending channel is still pending or has its frame on the way out, and a channel
that became confirmed has had its frame built. -/
structure LosesNone (s s' : State) : Prop where
  pending : ∀ c ∈ s.pendingTopics, c ∈ s'.pendingTopics ∨
    ∃ auth, Produces s s' (.subscribe c auth) ∧ Outgoing s' (.subscribe c auth)
  confirmed : ∀ c ∈ s'.subscriptions, c ∈ s.subscriptions ∨
    ∃ auth, Produces s s' (.subscribe c auth)

/-- The provider gives a text for the channel. -/
def Provides (provider : String → Token) (channel : String) : Prop :=
  ∃ token, provider channel = .text token

/-! ## The frames of a flush -/

variable (provider : String → Token) (s : State)

theorem pump_trace : ∃ events, s.pump.trace = events ++ s.trace ∧ ∀ frame, .enqueued frame ∉ events := by
  rcases pump_cases s with same | ⟨frame, rest, _, _, _, pumped⟩
  · exact ⟨[], by rw [same, List.nil_append], fun frame => List.not_mem_nil⟩
  · exact ⟨[.started (.write s.generation frame)], by rw [pumped, List.singleton_append], by simp⟩

theorem pump_outgoing {frame : Frame} (outgoing : Outgoing s frame) : Outgoing s.pump frame := by
  rcases pump_cases s with same | ⟨first, rest, _, _, queue, pumped⟩
  · rw [same]
    exact outgoing
  · rw [pumped]
    rcases outgoing with queued | writing
    · rw [queue] at queued
      rcases List.mem_cons.mp queued with rfl | behind
      · exact .inr List.mem_cons_self
      · exact .inl behind
    · exact .inr (List.mem_cons_of_mem _ writing)

/-- What is on the way out stays so. -/
theorem enqueueTopics_outgoing (channels : List String) {s : State} {frame : Frame}
    (outgoing : Outgoing s frame) : Outgoing (State.enqueueTopics provider channels s).1 frame :=
  enqueueTopics_relates (R := fun s s' => Outgoing s frame → Outgoing s' frame) (fun _ => id)
    (fun first second => second ∘ first)
    (fun _ _ queued => queued.imp_left (List.mem_append_left _)) (fun s => pump_outgoing s)
    provider channels s outgoing

/-- Only for a channel with a token is a subscribe frame built. -/
theorem enqueueTopics_trace (channels : List String) (s : State) :
    ∃ events, (State.enqueueTopics provider channels s).1.trace = events ++ s.trace ∧
      ∀ c auth, .enqueued (.subscribe c auth) ∈ events → Provides provider c := by
  induction channels generalizing s with
  | nil =>
    obtain ⟨events, grown, silent⟩ := pump_trace s
    exact ⟨events, grown, fun c auth built => absurd built (silent _)⟩
  | cons channel rest ih =>
    unfold State.enqueueTopics subscribeMsg
    cases given : provider channel with
    | throws jsonException => exact ⟨[], rfl, fun c auth built => absurd built List.not_mem_nil⟩
    | text token =>
      let frame : Frame := .subscribe channel (if token = "" then none else some token)
      obtain ⟨events, grown, tokens⟩ := ih (s.enqueueOp frame)
      refine ⟨events ++ [.enqueued frame], ?_, fun c auth built => ?_⟩
      · rw [List.append_assoc]
        exact grown
      · rcases List.mem_append.mp built with later | now
        · exact tokens c auth later
        · obtain ⟨rfl, -⟩ : c = channel ∧ auth = _ := by
            simpa [frame] using now
          exact ⟨token, given⟩

/-- A frame built behind another one. -/
theorem Produces.behind {s s' : State} {first frame : Frame}
    (built : Produces (s.enqueueOp first) s' frame) : Produces s s' frame := by
  obtain ⟨events, grown, member⟩ := built
  refine ⟨events ++ [.enqueued first], ?_, List.mem_append_left _ member⟩
  rw [List.append_assoc]
  exact grown

/-- The first frame is built, whatever follows. -/
theorem produces_first (channels : List String) (s : State) (frame : Frame) :
    Produces s (State.enqueueTopics provider channels (s.enqueueOp frame)).1 frame := by
  obtain ⟨events, grown, _⟩ := enqueueTopics_trace provider channels (s.enqueueOp frame)
  refine ⟨events ++ [.enqueued frame], ?_, List.mem_append_right _ List.mem_cons_self⟩
  rw [List.append_assoc]
  exact grown

/-- With a token for every channel, each has its frame built and on the way out. -/
theorem enqueueTopics_delivers {channels : List String}
    (tokens : ∀ c ∈ channels, Provides provider c) (s : State) {c : String} (member : c ∈ channels) :
    ∃ auth, Produces s (State.enqueueTopics provider channels s).1 (.subscribe c auth) ∧
      Outgoing (State.enqueueTopics provider channels s).1 (.subscribe c auth) := by
  induction channels generalizing s with
  | nil => exact absurd member List.not_mem_nil
  | cons channel rest ih =>
    obtain ⟨token, given⟩ := tokens channel List.mem_cons_self
    unfold State.enqueueTopics subscribeMsg
    rw [given]
    dsimp only
    let auth : Option String := if token = "" then none else some token
    rcases List.mem_cons.mp member with rfl | behind
    · refine ⟨auth, produces_first provider rest s _, ?_⟩
      apply enqueueTopics_outgoing
      exact .inl (List.mem_append_right _ List.mem_cons_self)
    · have later : ∀ c ∈ rest, Provides provider c :=
        fun c inside => tokens c (List.mem_cons_of_mem _ inside)
      obtain ⟨auth', built, outgoing⟩ := ih later (s.enqueueOp (.subscribe channel auth)) behind
      exact ⟨auth', built.behind, outgoing⟩

/-! ## The flush -/

variable {s}

/-- A flush on a connected and ready session loses nothing just when the provider has a
token for every pending channel. -/
theorem losesNone_iff (up : s.connected = true) (ready : s.ready = true) :
    LosesNone s (s.flushTopics provider).1 ↔ ∀ c ∈ s.pendingTopics, Provides provider c := by
  have effective : ¬((!s.connected || !s.ready) = true) := by
    simp [up, ready]
  let moved : State := { s with
    subscriptions := s.subscriptions ++ s.pendingTopics, pendingTopics := [] }
  have flushed : s.flushTopics provider = State.enqueueTopics provider s.pendingTopics moved :=
    if_neg effective
  obtain ⟨_, _, _, _, lists⟩ := enqueueTopics_eq provider s.pendingTopics moved
  have none_pending : (s.flushTopics provider).1.pendingTopics = [] := by
    rw [flushed, lists]
  have all_confirmed : (s.flushTopics provider).1.subscriptions = s.subscriptions ++ s.pendingTopics := by
    rw [flushed, lists]
  constructor
  · intro kept c member
    rcases kept.pending c member with left | ⟨auth, ⟨events, grown, built⟩, _⟩
    · rw [none_pending] at left
      exact absurd left List.not_mem_nil
    · obtain ⟨events', grown', tokens⟩ := enqueueTopics_trace provider s.pendingTopics moved
      have same : events = events' := by
        rw [flushed] at grown
        exact List.append_cancel_right (grown.symm.trans grown')
      exact tokens c auth (same ▸ built)
  · intro tokens
    constructor
    · intro c member
      obtain ⟨auth, produced, outgoing⟩ := enqueueTopics_delivers provider tokens moved member
      rw [flushed]
      exact .inr ⟨auth, produced, outgoing⟩
    · intro c listed
      rw [all_confirmed] at listed
      rcases List.mem_append.mp listed with before | member
      · exact .inl before
      · obtain ⟨auth, produced, _⟩ := enqueueTopics_delivers provider tokens moved member
        rw [flushed]
        exact .inr ⟨auth, produced⟩

/-- Two channels are subscribed on a connection that was greeted. -/
def waiting : List Action := connecting ++ [.subscribe "order_book/0", .subscribe "ticker/0"]

def noBookToken (channel : String) : Token :=
  if channel = "order_book/0" then .throws false else .text ""

theorem losesNone_iff_sample : ∃ s, run step State.start waiting = some s ∧
    s.connected = true ∧ s.ready = true ∧
    (LosesNone s (s.flushTopics plainTokens).1 ↔ ∀ c ∈ s.pendingTopics, Provides plainTokens c) := by
  obtain ⟨s, reached, up, ready⟩ : ∃ s, run step State.start waiting = some s ∧
      (s.connected = true ∧ s.ready = true) :=
    exists_run (by decide +kernel)
  exact ⟨s, reached, up, ready, losesNone_iff plainTokens up ready⟩

/-- The provider throws for the first of the two: the second is confirmed without a frame. -/
theorem later_channel_lost : ¬ ∀ (actions : List Action) (s : State) (provider : String → Token),
    run step State.start actions = some s → s.connected = true → s.ready = true →
      LosesNone s (s.flushTopics provider).1 := by
  intro always
  obtain ⟨s, reached, up, ready, pending, left, unbuilt⟩ : ∃ s,
      run step State.start waiting = some s ∧ (s.connected = true ∧ s.ready = true ∧
        "ticker/0" ∈ s.pendingTopics ∧ (s.flushTopics noBookToken).1.pendingTopics = [] ∧
        (s.flushTopics noBookToken).1.trace = s.trace) :=
    exists_run (by decide +kernel)
  rcases (always waiting s noBookToken reached up ready).pending _ pending with still |
    ⟨auth, ⟨events, grown, built⟩, _⟩
  · rw [left] at still
    exact absurd still List.not_mem_nil
  · rw [unbuilt, List.self_eq_append_left] at grown
    rw [grown] at built
    exact absurd built List.not_mem_nil

end LighterApi.Guarantees.LostSubscriptions
