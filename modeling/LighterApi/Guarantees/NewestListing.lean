import LighterApi.Library.LastMark
import LighterApi.Source.Rest

/-!
# A symbol is resolved in the newest listing

A REST client resolves symbols in a cache that every listing it can read replaces and that
no failed request touches. Whatever calls were made before and whatever the venue answered,
a symbol resolves as in the newest listing that could be read, that of the call included.
The call asks for a listing only while the newest one lacks the symbol: never on a hit, at
most once as soon as a listing was read, at most twice ever (`resolves_in_newest`).
-/
namespace LighterApi.Guarantees.NewestListing
open LighterApi.Library.LastMark
open LighterApi.Source LighterApi.Source.SendTx LighterApi.Source.Rest

variable (lib : RestExternals)

/-- The calls of a client that read listings, with the answers they would get. -/
inductive Call where
  | getPerpetualAssets (includeDelisted : Bool) (answer : Answer)
  | resolveMarketId (symbol : String) (answers : Nat → Answer)

/-- The cache of a client, and the answers to its listing requests. -/
structure Client where
  cache : SymbolCache
  heard : List Answer

/-- The answers to this many requests of a call. -/
def answersTo (answers : Nat → Answer) (asked : Nat) : List Answer := (List.range asked).map answers

def Client.call (c : Client) : Call → Client
  | .getPerpetualAssets includeDelisted answer =>
    ⟨(c.cache.getPerpetualAssets lib includeDelisted answer).1, c.heard ++ [answer]⟩
  | .resolveMarketId symbol answers =>
    let resolved := c.cache.resolveMarketId lib symbol answers
    ⟨resolved.1, c.heard ++ answersTo answers resolved.2.1⟩

def Client.calls (calls : List Call) : Client := calls.foldl (Client.call lib) ⟨.empty, []⟩

/-- The answer is a listing that can be read. -/
def Lists (_ : List Answer) (answer : Answer) (assets : List PerpAsset) : Prop :=
  readListing lib answer = .ok assets

abbrev Newest (heard : List Answer) (assets : List PerpAsset) : Prop := Latest (Lists lib) heard assets

/-- The market id of the last asset with the symbol. -/
def idIn (assets : List PerpAsset) (symbol : String) : Option Int :=
  (assets.filter fun asset => asset.symbol = symbol).getLast?.map PerpAsset.marketId

/-- The newest listing has the symbol under this id. -/
def Listed (heard : List Answer) (symbol : String) (marketId : Int) : Prop :=
  ∃ assets, Newest lib heard assets ∧ idIn assets symbol = some marketId

variable {lib}

/-! ## The cache -/

theorem fill_eq (assets : List PerpAsset) (symbol : String) :
    (SymbolCache.fill assets).symbolToMarketId symbol = idIn assets symbol := by
  unfold SymbolCache.fill idIn
  dsimp only
  induction assets using List.reverseRecOn with
  | nil => rfl
  | append_singleton assets asset ih =>
    rw [List.foldl_append, List.filter_append]
    by_cases same : asset.symbol = symbol
    · subst same
      simp
    · rw [List.foldl_cons, List.foldl_nil, Function.update_of_ne (fun eq => same eq.symm), ih]
      simp [same]

/-- The cache is that of the newest listing, or still empty. -/
structure Current (lib : RestExternals) (cache : SymbolCache) (heard : List Answer) : Prop where
  filled : ∀ assets, Newest lib heard assets → cache = .fill assets
  empty : (∀ assets, ¬ Newest lib heard assets) → cache = .empty

variable {cache : SymbolCache} {heard : List Answer}

theorem current_start : Current lib .empty [] where
  filled assets newest := absurd newest (not_latest_nil assets)
  empty _ := rfl

/-- A listing that is read is the newest one. -/
theorem newest_concat_iff {answer : Answer} {assets : List PerpAsset} :
    Newest lib (heard ++ [answer]) assets ↔ readListing lib answer = .ok assets ∨
      (∀ assets', readListing lib answer ≠ .ok assets') ∧ Newest lib heard assets :=
  latest_concat_iff

theorem Current.loaded {answer : Answer} {assets : List PerpAsset}
    (read : readListing lib answer = .ok assets) : Current lib (.fill assets) (heard ++ [answer]) where
  filled assets' newest := by
    rcases newest_concat_iff.mp newest with read' | ⟨unread, _⟩
    · rw [read] at read'
      rw [Except.ok.inj read']
    · exact absurd read (unread assets)
  empty none := absurd (newest_concat_iff.mpr (Or.inl read)) (none assets)

theorem Current.unread (h : Current lib cache heard) {answer : Answer} {what : String}
    (failed : readListing lib answer = .error what) : Current lib cache (heard ++ [answer]) := by
  have unread : ∀ assets, readListing lib answer ≠ .ok assets := fun assets read => by
    rw [failed] at read
    exact absurd read (by simp)
  have same : ∀ assets, Newest lib (heard ++ [answer]) assets ↔ Newest lib heard assets := by
    intro assets
    rw [newest_concat_iff]
    constructor
    · rintro (read | ⟨_, newest⟩)
      · exact absurd read (unread assets)
      · exact newest
    · intro newest
      exact Or.inr ⟨unread, newest⟩
  exact ⟨fun assets newest => h.filled assets ((same assets).mp newest),
    fun none => h.empty fun assets newest => none assets ((same assets).mpr newest)⟩

/-- A listing request, read or not. -/
theorem Current.load (h : Current lib cache heard) (answer : Answer) :
    Current lib (cache.loadAssets lib true answer).1 (heard ++ [answer]) := by
  unfold SymbolCache.loadAssets
  cases read : readListing lib answer with
  | error what => exact h.unread read
  | ok assets => exact Current.loaded read

/-- Looking a symbol up in the cache is looking it up in the newest listing. -/
theorem Current.lookup_iff (h : Current lib cache heard) {symbol : String} {marketId : Int} :
    cache.symbolToMarketId symbol = some marketId ↔ Listed lib heard symbol marketId := by
  by_cases any : ∃ assets, Newest lib heard assets
  · obtain ⟨assets, newest⟩ := any
    have filled := h.filled assets newest
    constructor
    · intro found
      rw [filled, fill_eq] at found
      exact ⟨assets, newest, found⟩
    · rintro ⟨assets', newest', found⟩
      rw [h.filled assets' newest', fill_eq]
      exact found
  · rw [h.empty (not_exists.mp any)]
    constructor
    · intro found
      exact absurd found (by simp [SymbolCache.empty])
    · rintro ⟨assets, newest, _⟩
      exact absurd ⟨assets, newest⟩ any

theorem Current.populated_iff (h : Current lib cache heard) :
    cache.symbolCachePopulated = true ↔ ∃ assets, Newest lib heard assets := by
  by_cases any : ∃ assets, Newest lib heard assets
  · obtain ⟨assets, newest⟩ := any
    rw [h.filled assets newest]
    exact ⟨fun _ => ⟨assets, newest⟩, fun _ => rfl⟩
  · rw [h.empty (not_exists.mp any)]
    exact ⟨fun populated => absurd populated (by simp [SymbolCache.empty]), fun found => absurd found any⟩

/-! ## A lookup -/

variable {symbol : String} {answers : Nat → Answer}

theorem answersTo_succ (answers : Nat → Answer) (asked : Nat) :
    answersTo answers (asked + 1) = answersTo answers asked ++ [answers asked] := by
  unfold answersTo
  rw [List.range_succ, List.map_append]
  rfl

/-- What a lookup does, with the cache it leaves, its requests and its result. -/
structure Resolves (lib : RestExternals) (heard : List Answer) (symbol : String)
    (answers : Nat → Answer) (after : SymbolCache) (asked : Nat) (result : Except String Int) :
    Prop where
  current : Current lib after (heard ++ answersTo answers asked)
  found : ∀ marketId, result = .ok marketId →
    Listed lib (heard ++ answersTo answers asked) symbol marketId
  refused : ∀ what, result = .error what → 0 < asked ∧
    (readListing lib (answers (asked - 1)) = .error what ∨
      what = "Lighter: unknown symbol '" ++ symbol ++ "'" ∧
        ∃ assets, readListing lib (answers (asked - 1)) = .ok assets ∧ idIn assets symbol = none)
  needed : ∀ k < asked, ∀ marketId, ¬ Listed lib (heard ++ answersTo answers k) symbol marketId

/-- A hit after the requests so far. -/
theorem Current.hit {asked : Nat} (h : Current lib cache (heard ++ answersTo answers asked))
    (needed : ∀ k < asked, ∀ marketId, ¬ Listed lib (heard ++ answersTo answers k) symbol marketId)
    {marketId : Int} (found : cache.symbolToMarketId symbol = some marketId) :
    Resolves lib heard symbol answers cache asked (.ok marketId) where
  current := h
  found other same := by
    rw [← Except.ok.inj same]
    exact h.lookup_iff.mp found
  refused what failed := absurd failed (by simp)
  needed := needed

/-- A request that cannot be read ends the lookup. -/
theorem Current.failed {asked : Nat} (h : Current lib cache (heard ++ answersTo answers asked))
    (needed : ∀ k ≤ asked, ∀ marketId, ¬ Listed lib (heard ++ answersTo answers k) symbol marketId)
    {what : String} (failed : readListing lib (answers asked) = .error what) :
    Resolves lib heard symbol answers cache (asked + 1) (.error what) where
  current := by
    rw [answersTo_succ, ← List.append_assoc]
    exact h.unread failed
  found marketId found := absurd found (by simp)
  refused what' same := by
    rw [← Except.error.inj same]
    exact ⟨Nat.succ_pos asked, Or.inl failed⟩
  needed k below := needed k (Nat.le_of_lt_succ below)

/-- A fresh listing without the symbol ends it as well. -/
theorem Current.unknown {asked : Nat} {assets : List PerpAsset}
    (needed : ∀ k ≤ asked, ∀ marketId, ¬ Listed lib (heard ++ answersTo answers k) symbol marketId)
    (read : readListing lib (answers asked) = .ok assets) (missing : idIn assets symbol = none) :
    Resolves lib heard symbol answers (.fill assets) (asked + 1)
      (.error ("Lighter: unknown symbol '" ++ symbol ++ "'")) where
  current := by
    rw [answersTo_succ, ← List.append_assoc]
    exact Current.loaded read
  found marketId found := absurd found (by simp)
  refused what same := ⟨Nat.succ_pos asked, Or.inr ⟨(Except.error.inj same).symm, assets, read, missing⟩⟩
  needed k below := needed k (Nat.le_of_lt_succ below)

/-- The second half of `resolveMarketId`, after a miss. -/
def lookAgain (lib : RestExternals) (cache : SymbolCache) (symbol : String) (asked : Nat)
    (answer : Answer) : SymbolCache × Nat × Except String Int :=
  match cache.loadAssets lib true answer with
  | (cache, .error what) => (cache, asked + 1, .error what)
  | (cache, .ok _) =>
    match cache.symbolToMarketId symbol with
    | some marketId => (cache, asked + 1, .ok marketId)
    | none => (cache, asked + 1, .error ("Lighter: unknown symbol '" ++ symbol ++ "'"))

/-- The lookup after the requests that filled the cache. -/
def lookUp (lib : RestExternals) (cache : SymbolCache) (symbol : String) (asked : Nat)
    (answer : Answer) : SymbolCache × Nat × Except String Int :=
  (cache.symbolToMarketId symbol).elim (lookAgain lib cache symbol asked answer)
    fun marketId => (cache, asked, .ok marketId)

theorem resolveMarketId_populated (populated : cache.symbolCachePopulated = true) :
    cache.resolveMarketId lib symbol answers = lookUp lib cache symbol 0 (answers 0) := by
  unfold SymbolCache.resolveMarketId SymbolCache.ensureSymbolCache lookUp
  rw [if_pos populated]
  dsimp only
  cases cache.symbolToMarketId symbol <;> rfl

theorem resolveMarketId_unread (empty : cache.symbolCachePopulated = false) {what : String}
    (failed : readListing lib (answers 0) = .error what) :
    cache.resolveMarketId lib symbol answers = (cache, 1, .error what) := by
  simp [SymbolCache.resolveMarketId, SymbolCache.ensureSymbolCache, SymbolCache.loadAssets, empty,
    failed]

theorem resolveMarketId_read (empty : cache.symbolCachePopulated = false) {assets : List PerpAsset}
    (read : readListing lib (answers 0) = .ok assets) : cache.resolveMarketId lib symbol answers =
      lookUp lib (.fill assets) symbol 1 (answers 1) := by
  unfold SymbolCache.resolveMarketId SymbolCache.ensureSymbolCache lookUp
  rw [if_neg (by simp [empty]), SymbolCache.loadAssets, read]
  dsimp only
  rw [if_pos rfl]
  cases (SymbolCache.fill assets).symbolToMarketId symbol <;> rfl

theorem Current.lookAgain {asked : Nat} (h : Current lib cache (heard ++ answersTo answers asked))
    (needed : ∀ k ≤ asked, ∀ marketId, ¬ Listed lib (heard ++ answersTo answers k) symbol marketId) :
    (lookAgain lib cache symbol asked (answers asked)).2.1 = asked + 1 ∧
      Resolves lib heard symbol answers (lookAgain lib cache symbol asked (answers asked)).1
        (asked + 1) (lookAgain lib cache symbol asked (answers asked)).2.2 := by
  unfold NewestListing.lookAgain SymbolCache.loadAssets
  cases read : readListing lib (answers asked) with
  | error what => exact ⟨rfl, h.failed needed read⟩
  | ok assets =>
    dsimp only
    rw [if_pos rfl]
    cases looked : (SymbolCache.fill assets).symbolToMarketId symbol with
    | some marketId =>
      have current : Current lib (.fill assets) (heard ++ answersTo answers (asked + 1)) := by
        rw [answersTo_succ, ← List.append_assoc]
        exact Current.loaded read
      exact ⟨rfl, current.hit (fun k below => needed k (Nat.le_of_lt_succ below)) looked⟩
    | none => exact ⟨rfl, Current.unknown needed read (fill_eq assets symbol ▸ looked)⟩

/-- A miss: no listing so far has the symbol. -/
theorem Current.missing (h : Current lib cache heard) (miss : cache.symbolToMarketId symbol = none)
    (marketId : Int) : ¬ Listed lib heard symbol marketId := by
  intro listed
  rw [h.lookup_iff.mpr listed] at miss
  exact absurd miss (by simp)

theorem Current.lookUp {asked : Nat} (h : Current lib cache (heard ++ answersTo answers asked))
    (symbol : String)
    (needed : ∀ k < asked, ∀ marketId, ¬ Listed lib (heard ++ answersTo answers k) symbol marketId) :
    (lookUp lib cache symbol asked (answers asked)).2.1 ≤ asked + 1 ∧
      Resolves lib heard symbol answers (lookUp lib cache symbol asked (answers asked)).1
        (lookUp lib cache symbol asked (answers asked)).2.1
        (lookUp lib cache symbol asked (answers asked)).2.2 := by
  unfold NewestListing.lookUp
  cases looked : cache.symbolToMarketId symbol with
  | some marketId => exact ⟨Nat.le_succ asked, h.hit needed looked⟩
  | none =>
    have still_needed : ∀ k ≤ asked, ∀ marketId,
        ¬ Listed lib (heard ++ answersTo answers k) symbol marketId := by
      intro k upto
      rcases Nat.lt_or_eq_of_le upto with below | rfl
      · exact needed k below
      · exact h.missing looked
    obtain ⟨count, resolves⟩ := h.lookAgain still_needed
    exact ⟨count.le, by rw [Option.elim_none, count]; exact resolves⟩

/-- The requests and the result of a lookup. -/
theorem Current.resolves (h : Current lib cache heard) (symbol : String) (answers : Nat → Answer) :
    let resolved := cache.resolveMarketId lib symbol answers
    Resolves lib heard symbol answers resolved.1 resolved.2.1 resolved.2.2 ∧ resolved.2.1 ≤ 2 ∧
      (cache.symbolCachePopulated = true → resolved.2.1 ≤ 1) := by
  have before : Current lib cache (heard ++ answersTo answers 0) := by
    rw [answersTo, List.range_zero, List.map_nil, List.append_nil]
    exact h
  cases populated : cache.symbolCachePopulated with
  | true =>
    obtain ⟨count, resolves⟩ := before.lookUp symbol fun k below =>
      absurd below (Nat.not_lt_zero k)
    rw [resolveMarketId_populated populated]
    exact ⟨resolves, by omega, fun _ => count⟩
  | false =>
    -- Nothing was listed before, so the first request is needed.
    have nothing : ∀ k ≤ 0, ∀ marketId,
        ¬ Listed lib (heard ++ answersTo answers k) symbol marketId := by
      rintro k zero marketId ⟨assets, newest, _⟩
      rw [Nat.le_zero.mp zero] at newest
      have known := before.populated_iff.mpr ⟨assets, newest⟩
      exact absurd (populated.symm.trans known) (by simp)
    cases read : readListing lib (answers 0) with
    | error what =>
      rw [resolveMarketId_unread populated read]
      exact ⟨before.failed nothing read, by simp, fun known => absurd known (by simp)⟩
    | ok assets =>
      have current : Current lib (.fill assets) (heard ++ answersTo answers 1) := by
        rw [answersTo_succ, ← List.append_assoc]
        exact Current.loaded read
      obtain ⟨count, resolves⟩ := current.lookUp symbol fun k below =>
        nothing k (Nat.le_of_lt_succ below)
      rw [resolveMarketId_read populated read]
      exact ⟨resolves, count, fun known => absurd known (by simp)⟩

/-! ## A client's life -/

/-- The step lemma. -/
theorem current_call {c : Client} (h : Current lib c.cache c.heard) (call : Call) :
    Current lib (c.call lib call).cache (c.call lib call).heard := by
  cases call with
  | getPerpetualAssets includeDelisted answer => exact h.load answer
  | resolveMarketId symbol answers => exact (h.resolves symbol answers).1.current

theorem current_calls (calls : List Call) :
    Current lib (Client.calls lib calls).cache (Client.calls lib calls).heard := by
  induction calls using List.reverseRecOn with
  | nil => exact current_start
  | append_singleton calls call ih =>
    unfold Client.calls at ih ⊢
    rw [List.foldl_append]
    exact current_call ih call

/-- After any calls, whatever was answered: the id that a lookup gives is that of the newest
listing read, and it refuses a symbol only on an answer it cannot read or on a fresh listing
without it. It asks only while the newest listing lacks the symbol, at most twice, and at
most once if a listing was ever read. -/
theorem resolves_in_newest (lib : RestExternals) (calls : List Call) (symbol : String)
    (answers : Nat → Answer) :
    let c := Client.calls lib calls
    let asked := (c.cache.resolveMarketId lib symbol answers).2.1
    let result := (c.cache.resolveMarketId lib symbol answers).2.2
    (∀ marketId, result = .ok marketId →
      Listed lib (c.heard ++ answersTo answers asked) symbol marketId) ∧
    (∀ what, result = .error what → 0 < asked ∧
      (readListing lib (answers (asked - 1)) = .error what ∨
        what = "Lighter: unknown symbol '" ++ symbol ++ "'" ∧
          ∃ assets, readListing lib (answers (asked - 1)) = .ok assets ∧ idIn assets symbol = none)) ∧
    (∀ k < asked, ∀ marketId, ¬ Listed lib (c.heard ++ answersTo answers k) symbol marketId) ∧
    asked ≤ 2 ∧ ((∃ assets, Newest lib c.heard assets) → asked ≤ 1) := by
  have current : Current lib (Client.calls lib calls).cache (Client.calls lib calls).heard :=
    current_calls calls
  obtain ⟨resolves, twice, once⟩ := current.resolves symbol answers
  exact ⟨resolves.found, resolves.refused, resolves.needed, twice,
    fun listed => once (current.populated_iff.mpr listed)⟩

end LighterApi.Guarantees.NewestListing
