import LighterApi.Guarantees.OneAccount

/-!
# The REST token and its deadline stay in step

Every path that reloads the instruments or sends a transaction refreshes the token first.
The constructor refuses an empty token; the refresh takes whatever the signer returns
without an error text, so the token and its deadline are in step exactly in the runs in
which no due mint returns the empty string that way.
-/
namespace LighterApi.Guarantees.AuthToken
open LighterApi.Library.Transition
open LighterApi.Source LighterApi.Source.Signer LighterApi.Source.GatewayLife
open LighterApi.Guarantees.OneAccount LighterApi.Guarantees.OrderIndices

/-- A reading of the clock and the signer's answer to a mint at that time. -/
structure Mint where
  now : Int
  minted : StrOrErr

/-- The refresh an action begins with. -/
def refreshes : Action → Option Mint
  | .refreshInstruments now minted _ | .start now minted _ => some ⟨now, minted⟩
  | .orders (.send _ _) now minted => some ⟨now, minted⟩
  | _ => none

/-- The refresh asks for a new token. -/
def Due (s : Life) (m : Mint) : Prop := ¬ m.now < s.authTokenDeadline - 3600

/-- A mint that was due gave no token: an exception, or the empty string. -/
def Failed (s : Life) (m : Mint) : Prop :=
  Due s m ∧ ∀ authToken, takeToken m.minted = .ok authToken → authToken = ""

/-- The action mints, and is given the empty string without an error. -/
def MintsEmpty (s : Life) (a : Action) : Prop :=
  ∃ m, refreshes a = some m ∧ Due s m ∧ takeToken m.minted = .ok ""

/-- The constructor's mint, or that of a refresh that was due. -/
def Performed (cfg : GatewayRun.Config) (first : Mint) (life : Life) (actions : List Action)
    (m : Mint) : Prop :=
  m = first ∨ ∃ past a rest s, actions = past ++ a :: rest ∧ run (step cfg) life past = some s ∧
    refreshes a = some m ∧ Due s m

/-- The token is not empty, and a mint gave it for the recorded deadline. -/
structure InStep (cfg : GatewayRun.Config) (first : Mint) (life : Life) (actions : List Action)
    (s : Life) : Prop where
  nonempty : s.authToken ≠ ""
  minted : ∃ m, Performed cfg first life actions m ∧ takeToken m.minted = .ok s.authToken ∧
    s.authTokenDeadline = m.now + tokenLifetime

/-- After a refresh without a failed mint the token has more than an hour left. -/
def Lasts (s s' : Life) (a : Action) : Prop :=
  ∀ m, refreshes a = some m → ¬ Failed s m → 3600 < s'.authTokenDeadline - m.now

/-- In every state of the run and after every step of it. -/
structure InStepThroughout (cfg : GatewayRun.Config) (first : Mint) (life : Life)
    (actions : List Action) : Prop where
  inStep : ∀ past rest s, actions = past ++ rest → run (step cfg) life past = some s →
    InStep cfg first life past s
  lasts : ∀ past a rest s s', actions = past ++ a :: rest → run (step cfg) life past = some s →
    step cfg s a = some s' → Lasts s s' a

/-- No step of the run mints the empty string. -/
def NeverMintsEmpty (cfg : GatewayRun.Config) (life : Life) (actions : List Action) : Prop :=
  ∀ past a rest s s', actions = past ++ a :: rest → run (step cfg) life past = some s →
    step cfg s a = some s' → ¬ MintsEmpty s a

/-! ## One step -/

variable {cfg : GatewayRun.Config} {s s' : Life} {a : Action}

/-- The token held, with its deadline. -/
def held (s : Life) : String × Int := (s.authToken, s.authTokenDeadline)

theorem held_of_session (s : Life) (calls : WsSession.Action) (taken : s.sessionCall calls = some s') :
    held s' = held s := by
  obtain ⟨session, _, rfl⟩ := Option.map_eq_some_iff.mp taken
  rfl

theorem held_of_sessionStep {calls : WsSession.Action} {now : Int} {minted : String → StrOrErr}
    (taken : s.sessionStep calls now minted = some s') : held s' = held s := by
  unfold Life.sessionStep at taken
  split at taken
  · exact absurd taken (by simp)
  · obtain ⟨session, _, rfl⟩ := Option.map_eq_some_iff.mp taken
    rfl

theorem held_askOrders (s : Life) (calls : GatewayRun.Action) : held (s.askOrders calls) = held s := by
  cases calls with
  | sign t answer =>
    unfold Life.askOrders
    dsimp only
    split <;> rfl
  | _ => rfl

theorem held_ordersStep {calls : GatewayRun.Action} {now : Int} {minted : StrOrErr}
    (taken : s.ordersStep cfg calls now minted = some s') : held s' =
    held ((refreshes (.orders calls now minted)).elim s fun m =>
      s.refreshAuthTokenIfNeeded m.now m.minted) := by
  obtain ⟨orders, _, rfl⟩ := Option.map_eq_some_iff.mp taken
  cases calls with
  | send t answer => rfl
  | _ => exact held_askOrders s _

theorem held_loadInstruments (s : Life) (now : Int) (minted : StrOrErr)
    (reply : Except String Gateway.Instruments) :
    held (s.loadInstruments now minted reply) = held (s.refreshAuthTokenIfNeeded now minted) := by
  cases reply <;> rfl

/-- A step changes the token and the deadline only through its refresh. -/
theorem held_step (taken : step cfg s a = some s') : held s' =
    held ((refreshes a).elim s fun m => s.refreshAuthTokenIfNeeded m.now m.minted) := by
  cases a with
  | refreshInstruments now minted reply =>
    rw [← Option.some.inj taken]
    exact held_loadInstruments s now minted reply
  | start now minted reply =>
    simp only [step] at taken
    split at taken
    · rw [← Option.some.inj taken]
      exact held_loadInstruments s now minted reply
    · exact absurd taken (by simp)
  | seedNonce reply =>
    simp only [step] at taken
    split at taken
    · rw [← Option.some.inj taken]
      cases reply <;> rfl
    · exact absurd taken (by simp)
  | checkClient =>
    simp only [step] at taken
    split at taken
    · rw [← Option.some.inj taken]
      rfl
    · exact absurd taken (by simp)
  | subscribeAccountOrders =>
    simp only [step] at taken
    split at taken
    · exact (held_of_session _ _ taken).trans rfl
    · exact absurd taken (by simp)
  | startReturns =>
    simp only [step] at taken
    split at taken
    · rw [← Option.some.inj taken]
      rfl
    · exact absurd taken (by simp)
  | subscribeOrderBook marketId => exact held_of_session s _ taken
  | unsubscribeOrderBook marketId =>
    simp only [step] at taken
    split at taken
    · exact held_of_session s _ taken
    · rw [← Option.some.inj taken]
      rfl
  | orders calls now minted =>
    cases calls with
    | reload instruments => exact absurd taken (by simp [step])
    | _ => exact held_ordersStep taken
  | session calls now minted =>
    cases calls with
    | subscribe channel => exact absurd taken (by simp [step])
    | unsubscribe channel => exact absurd taken (by simp [step])
    | _ => exact held_of_sessionStep taken

/-- A refresh that is due takes what the mint gives; any other leaves things as they are. -/
theorem held_refresh (s : Life) (m : Mint) :
    (held (s.refreshAuthTokenIfNeeded m.now m.minted) = held s ∧
      ∀ authToken, Due s m → takeToken m.minted ≠ .ok authToken) ∨
    ∃ authToken, Due s m ∧ takeToken m.minted = .ok authToken ∧
      held (s.refreshAuthTokenIfNeeded m.now m.minted) = (authToken, m.now + tokenLifetime) := by
  unfold Life.refreshAuthTokenIfNeeded
  split
  · rename_i early
    exact Or.inl ⟨rfl, fun _ due => absurd early due⟩
  · rename_i due
    cases given : takeToken m.minted with
    | error what => exact Or.inl ⟨rfl, fun _ _ => by simp⟩
    | ok authToken => exact Or.inr ⟨authToken, due, rfl, rfl⟩

/-- The token of a refresh lasts more than an hour unless its mint failed. -/
theorem lasts_step (taken : step cfg s a = some s') : Lasts s s' a := by
  intro m refresh succeeded
  have same := held_step taken
  rw [refresh, Option.elim_some] at same
  rcases held_refresh s m with ⟨unchanged, unminted⟩ | ⟨authToken, due, given, new⟩
  · have deadline : s'.authTokenDeadline = s.authTokenDeadline :=
      congrArg Prod.snd (same.trans unchanged)
    have early : ¬ Due s m := by
      intro due
      exact succeeded ⟨due, fun authToken given => absurd given (unminted authToken due)⟩
    unfold Due at early
    omega
  · have deadline : s'.authTokenDeadline = m.now + tokenLifetime :=
      congrArg Prod.snd (same.trans new)
    unfold tokenLifetime at deadline
    omega

variable {first : Mint} {life : Life} {actions : List Action}

theorem Performed.later {m : Mint} (h : Performed cfg first life actions m) (a : Action) :
    Performed cfg first life (actions ++ [a]) m := by
  rcases h with constructed | ⟨past, b, rest, s, rfl, reached, refresh, due⟩
  · exact Or.inl constructed
  · exact Or.inr ⟨past, b, rest ++ [a], s, by simp, reached, refresh, due⟩

/-- The step lemma. -/
theorem InStep.step (h : InStep cfg first life actions s)
    (reached : run (step cfg) life actions = some s) (taken : step cfg s a = some s')
    (nonempty : ¬ MintsEmpty s a) : InStep cfg first life (actions ++ [a]) s' := by
  have same := held_step taken
  have stays : held s' = held s → InStep cfg first life (actions ++ [a]) s' := by
    intro unchanged
    obtain ⟨token_eq, deadline_eq⟩ := Prod.mk.inj unchanged
    obtain ⟨m, performed, given, deadline⟩ := h.minted
    refine ⟨token_eq ▸ h.nonempty, m, performed.later a, ?_, deadline_eq.trans deadline⟩
    rw [given, token_eq]
  cases refresh : refreshes a with
  | none =>
    rw [refresh] at same
    exact stays same
  | some m =>
    rw [refresh, Option.elim_some] at same
    rcases held_refresh s m with ⟨unchanged, _⟩ | ⟨authToken, due, given, new⟩
    · exact stays (same.trans unchanged)
    · obtain ⟨token_eq, deadline_eq⟩ := Prod.mk.inj (same.trans new)
      refine ⟨?_, m, Or.inr ⟨actions, a, [], s, rfl, reached, refresh, due⟩, ?_, deadline_eq⟩
      · rintro empty
        exact nonempty ⟨m, refresh, due, given.trans (by rw [← token_eq, empty])⟩
      · rw [given, token_eq]

/-! ## Every run -/

variable {lib : NativeLib} {nowMs now : Int} {url apiPrivateKey : String}
  {apiKeyIndex accountIndex : Int}

/-- The mint of the constructor. -/
def firstMint (lib : NativeLib) (now apiKeyIndex accountIndex : Int) : Mint :=
  ⟨now, lib.createAuthToken (now + tokenLifetime) apiKeyIndex accountIndex⟩

theorem inStep_construct
    (accepted : construct lib nowMs now url apiPrivateKey apiKeyIndex accountIndex = .ok life) :
    InStep cfg (firstMint lib now apiKeyIndex accountIndex) life [] life := by
  unfold construct at accepted
  split at accepted
  · exact absurd accepted (by simp)
  · rename_i signer created
    obtain rfl := LighterSigner.create_eq_ok created
    dsimp only at accepted
    split at accepted
    · exact absurd accepted (by simp)
    · rename_i authToken given
      split at accepted
      · exact absurd accepted (by simp)
      · rename_i nonempty
        obtain rfl := Except.ok.inj accepted
        exact ⟨nonempty, _, Or.inl rfl, given, rfl⟩

theorem NeverMintsEmpty.before {past rest : List Action}
    (h : NeverMintsEmpty cfg life (past ++ rest)) : NeverMintsEmpty cfg life past := by
  intro before a after s s' cut reached taken
  exact h before a (after ++ rest) s s' (by simp [cut]) reached taken

/-- The run lemma. -/
theorem inStep_of_run
    (accepted : construct lib nowMs now url apiPrivateKey apiKeyIndex accountIndex = .ok life)
    (never : NeverMintsEmpty cfg life actions) (reached : run (step cfg) life actions = some s) :
    InStep cfg (firstMint lib now apiKeyIndex accountIndex) life actions s := by
  revert never
  refine run_history (H := fun past s => NeverMintsEmpty cfg life past →
    InStep cfg (firstMint lib now apiKeyIndex accountIndex) life past s) ?_
    (fun _ => inStep_construct accepted) reached
  intro past s a s' before inStep taken never
  exact (inStep never.before).step before taken (never past a [] s s' rfl before taken)

/-- In a run of a constructed gateway the token and its deadline stay in step exactly when
no mint gives the empty string. -/
theorem token_in_step_iff
    (accepted : construct lib nowMs now url apiPrivateKey apiKeyIndex accountIndex = .ok life)
    (cfg : GatewayRun.Config) (actions : List Action) :
    InStepThroughout cfg (firstMint lib now apiKeyIndex accountIndex) life actions ↔
      NeverMintsEmpty cfg life actions := by
  constructor
  · intro throughout past a rest s s' cut reached taken
    rintro ⟨m, refresh, due, empty⟩
    have after : run (step cfg) life (past ++ [a]) = some s' :=
      run_append_eq_some.mpr ⟨s, reached, run_cons_eq_some.mpr ⟨s', taken, rfl⟩⟩
    refine (throughout.inStep (past ++ [a]) rest s' (by simp [cut]) after).nonempty ?_
    have same := held_step taken
    rw [refresh, Option.elim_some] at same
    rcases held_refresh s m with ⟨_, unminted⟩ | ⟨authToken, _, given, new⟩
    · exact absurd empty (unminted "" due)
    · obtain rfl := Except.ok.inj (given.symm.trans empty)
      exact congrArg Prod.fst (same.trans new)
  · intro never
    constructor
    · rintro past rest s rfl reached
      exact inStep_of_run accepted never.before reached
    · intro past a rest s s' _ _ taken
      exact lasts_step taken

/-- The token expires within the hour and is minted anew. -/
theorem token_in_step_iff_sample : ∃ life,
    construct sampleLib 1 0 "https://mainnet.zklighter.elliot.ai" "0xab" 3 77 = .ok life ∧
      (InStepThroughout sampleConfig (firstMint sampleLib 0 3 77) life
          [.refreshInstruments 26000 ⟨"next", ""⟩ (.error "")] ↔
        NeverMintsEmpty sampleConfig life [.refreshInstruments 26000 ⟨"next", ""⟩ (.error "")]) := by
  obtain ⟨life, accepted⟩ : ∃ life, construct sampleLib 1 0 "https://mainnet.zklighter.elliot.ai"
      "0xab" 3 77 = .ok life := ⟨_, rfl⟩
  exact ⟨life, accepted, token_in_step_iff accepted _ _⟩

/-- The readings of the clock, from the constructor's on. -/
def times (now : Int) (actions : List Action) : List Int :=
  now :: actions.filterMap fun a => (refreshes a).map Mint.now

/-- A refresh is given the empty string, and the gateway holds it for seven hours. -/
theorem empty_token_held : ¬ ∀ (lib : NativeLib) (cfg : GatewayRun.Config) (nowMs now : Int)
    (url apiPrivateKey : String) (apiKeyIndex accountIndex : Int) (life : Life)
    (actions : List Action),
    construct lib nowMs now url apiPrivateKey apiKeyIndex accountIndex = .ok life →
    (times now actions).Pairwise (· ≤ ·) →
    InStepThroughout cfg (firstMint lib now apiKeyIndex accountIndex) life actions := by
  intro always
  obtain ⟨life, accepted, reached⟩ : ∃ life, construct sampleLib 1 0
      "https://mainnet.zklighter.elliot.ai" "0xab" 3 77 = .ok life ∧
      ∃ s, run (step sampleConfig) life [.refreshInstruments 26000 ⟨"", ""⟩ (.error "")] = some s ∧
        s.authToken = "" := ⟨_, rfl, _, rfl, rfl⟩
  obtain ⟨s, reached, empty⟩ := reached
  have throughout := always sampleLib sampleConfig 1 0 _ _ 3 77 life
    [.refreshInstruments 26000 ⟨"", ""⟩ (.error "")] accepted (by decide)
  exact (throughout.inStep _ [] s rfl reached).nonempty empty

end LighterApi.Guarantees.AuthToken
