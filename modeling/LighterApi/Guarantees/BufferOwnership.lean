import LighterApi.Source.SignerBuffers

/-!
# Every buffer of the native signer is freed once

Whatever the library answers, an error text among them, the wrapper takes every pointer of
a response, and takes it once: an exception is thrown only after the last `Free`. So
however the calls of any number of threads and signers interleave, no buffer is freed
twice, read after its `Free` or forgotten, and what a call returns or throws is told by the
texts of its own response (`buffers_freed_once`).
-/
namespace LighterApi.Guarantees.BufferOwnership
open LighterApi.Library.Transition LighterApi.Library.HandedBuffers
open LighterApi.Source LighterApi.Source.SignerBuffers

def addressesOf (strings : List CString) : List Nat := strings.reduceOption.map Prod.fst

/-- A pointer is taken off the front. -/
theorem frees_takeString {ptr : CString} {next : String → Wrapper} {later : List CString}
    (frees : ∀ out, (next out).Frees (addressesOf later)) :
    (takeString ptr next).Frees (addressesOf (ptr :: later)) := by
  cases ptr with
  | none => exact frees ""
  | some buffer =>
    refine ⟨List.mem_cons_self, fun b => ?_⟩
    have rest : (addressesOf (some buffer :: later)).erase buffer.1 = addressesOf later :=
      List.erase_cons_head buffer.1 _
    rw [rest]
    exact frees b

theorem frees_takeSigned (resp : SignedTxResponse) (what : String) :
    (takeSigned resp what).Frees
      (addressesOf [resp.txInfo, resp.txHash, resp.messageToSign, resp.err]) :=
  frees_takeString fun _ => frees_takeString fun _ => frees_takeString fun _ =>
    frees_takeString fun _ => rfl

theorem careful (response : Response) : response.call.Careful := by
  cases response with
  | createClient err =>
    change (SignerBuffers.createClient err).Frees (addressesOf [err])
    exact frees_takeString fun _ => rfl
  | checkClient text =>
    change (SignerBuffers.checkClient text).Frees (addressesOf [text])
    exact frees_takeString fun _ => rfl
  | signCreateOrder resp => exact frees_takeSigned resp "SignCreateOrder"
  | signCancelOrder resp => exact frees_takeSigned resp "SignCancelOrder"
  | signCancelAllOrders resp => exact frees_takeSigned resp "SignCancelAllOrders"
  | createAuthToken resp =>
    change (SignerBuffers.createAuthToken resp).Frees (addressesOf [resp.str, resp.err])
    exact frees_takeString fun _ => frees_takeString fun _ => rfl
  | generateApiKey resp =>
    change (SignerBuffers.generateApiKey resp).Frees
      (addressesOf [resp.privateKey, resp.publicKey, resp.err])
    exact frees_takeString fun _ => frees_takeString fun _ => frees_takeString fun _ => rfl

/-- What the texts of a response amount to. -/
def outcome : Response → Except String Value
  | .createClient err => checked "CreateClient" err.text .client
  | .checkClient text => .ok (.text text.text)
  | .signCreateOrder resp =>
    checked "SignCreateOrder" resp.err.text
      (.signedTx resp.txType resp.txInfo.text resp.txHash.text)
  | .signCancelOrder resp =>
    checked "SignCancelOrder" resp.err.text
      (.signedTx resp.txType resp.txInfo.text resp.txHash.text)
  | .signCancelAllOrders resp =>
    checked "SignCancelAllOrders" resp.err.text
      (.signedTx resp.txType resp.txInfo.text resp.txHash.text)
  | .createAuthToken resp => (Signer.takeToken ⟨resp.str.text, resp.err.text⟩).map .text
  | .generateApiKey resp =>
    checked "GenerateAPIKey" resp.err.text (.apiKeyPair resp.privateKey.text resp.publicKey.text)

/-- The heap holds the texts of these strings. -/
def Spells (contents : Nat → Option String) (strings : List CString) : Prop :=
  ∀ p s, some (p, s) ∈ strings → contents p = some s

theorem value_takeString {contents : Nat → Option String} {ptr : CString} {next : String → Wrapper}
    (spells : ∀ p s, ptr = some (p, s) → contents p = some s) :
    (takeString ptr next).value contents = (next ptr.text).value contents := by
  cases ptr with
  | none => rfl
  | some buffer =>
    change (next ((contents buffer.1).getD "")).value contents = _
    rw [spells buffer.1 buffer.2 rfl]
    rfl

theorem value_takeSigned {contents : Nat → Option String} {resp : SignedTxResponse} (what : String)
    (spells : Spells contents [resp.txInfo, resp.txHash, resp.messageToSign, resp.err]) :
    (takeSigned resp what).value contents =
      checked what resp.err.text (.signedTx resp.txType resp.txInfo.text resp.txHash.text) := by
  unfold takeSigned
  rw [value_takeString fun p s h => spells p s (by simp [h]),
    value_takeString fun p s h => spells p s (by simp [h]),
    value_takeString fun p s h => spells p s (by simp [h]),
    value_takeString fun p s h => spells p s (by simp [h])]
  rfl

theorem value_wrapper {contents : Nat → Option String} {response : Response}
    (spells : Spells contents response.strings) :
    response.wrapper.value contents = outcome response := by
  cases response with
  | createClient err =>
    simp only [Response.wrapper, SignerBuffers.createClient]
    rw [value_takeString fun p s h => spells p s (by simp [Response.strings, h])]
    rfl
  | checkClient text =>
    simp only [Response.wrapper, SignerBuffers.checkClient]
    rw [value_takeString fun p s h => spells p s (by simp [Response.strings, h])]
    rfl
  | signCreateOrder resp => exact value_takeSigned "SignCreateOrder" spells
  | signCancelOrder resp => exact value_takeSigned "SignCancelOrder" spells
  | signCancelAllOrders resp => exact value_takeSigned "SignCancelAllOrders" spells
  | createAuthToken resp =>
    simp only [Response.wrapper, SignerBuffers.createAuthToken]
    rw [value_takeString fun p s h => spells p s (by simp [Response.strings, h]),
      value_takeString fun p s h => spells p s (by simp [Response.strings, h])]
    simp only [Code.value, checked, outcome, Signer.takeToken]
    split <;> rfl
  | generateApiKey resp =>
    simp only [Response.wrapper, SignerBuffers.generateApiKey]
    rw [value_takeString fun p s h => spells p s (by simp [Response.strings, h]),
      value_takeString fun p s h => spells p s (by simp [Response.strings, h]),
      value_takeString fun p s h => spells p s (by simp [Response.strings, h])]
    rfl

theorem value_call {response : Response} (distinct : response.call.addresses.Nodup) :
    response.call.value = outcome response := by
  refine value_wrapper fun p s member => ?_
  exact Call.contents_of_mem distinct (List.reduceOption_mem_iff.mpr member)

/-- However the calls interleave and whatever they answer: a thread inside a call can go on,
nothing stays allocated behind the calls, and every call returns or throws what its own
response says. -/
theorem buffers_freed_once (actions : List (Action Response))
    (s : State String (Except String Value))
    (reached : run (step Response.call) State.start actions = some s) :
    (∀ t, s.threads t ≠ none → (step Response.call s (.take t)).isSome ∨
      (step Response.call s (.leave t)).isSome) ∧
    ((∀ t, s.threads t = none) → ∀ p, s.heap p = none) ∧
    ∀ c r, (c, r) ∈ s.returned → ∃ response : Response, c = response.call ∧ r = outcome response := by
  obtain ⟨owned, h⟩ := run_owned careful reached
  refine ⟨fun t busy => h.ready busy, h.empty, fun c r member => ?_⟩
  obtain ⟨⟨⟨response, rfl⟩, distinct⟩, rfl⟩ := h.returned c r member
  exact ⟨response, rfl, value_call distinct⟩

/-- Two threads mint and sign at once; the signing fails. -/
def interleaved : List (Action Response) :=
  [.call 0 (.createAuthToken ⟨some (8, "token"), none⟩),
    .call 1 (.signCreateOrder ⟨14, none, none, some (16, "m"), some (24, "bad nonce")⟩),
    .take 1, .take 0, .take 1, .take 0, .take 1, .leave 0, .take 1, .leave 1]

theorem buffers_freed_once_interleaved : ∃ s,
    run (step Response.call) State.start interleaved = some s ∧
      s.returned.map Prod.snd =
        [.error "Lighter SignCreateOrder: bad nonce", .ok (.text "token")] ∧
      ∀ c r, (c, r) ∈ s.returned → ∃ response : Response, c = response.call ∧ r = outcome response := by
  have ends : ∃ s, run (step Response.call) State.start interleaved = some s ∧
      s.returned.map Prod.snd = [.error "Lighter SignCreateOrder: bad nonce", .ok (.text "token")] :=
    exists_run (by decide +kernel)
  obtain ⟨s, reached, results⟩ := ends
  exact ⟨s, reached, results, (buffers_freed_once interleaved s reached).2.2⟩

end LighterApi.Guarantees.BufferOwnership
