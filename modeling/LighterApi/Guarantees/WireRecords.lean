import Mathlib.Data.List.Forall2
import LighterApi.Source.Rest

/-!
# What the venue wrote is what the REST client returns

A record on the wire is an object with the fields the parser asks for, in any order, next
to any others, and with its decimals in any spelling that reads as the same double. From
every page of such records the client returns the records themselves, in order: the
candles, the instruments with their market configuration, and an account with all its
positions and assets.
-/
namespace LighterApi.Guarantees.WireRecords
open LighterApi.Source LighterApi.Source.SendTx LighterApi.Source.History LighterApi.Source.Rest

/-- The readers give back a field of the right type that is there. -/
structure Reads (lib : RestExternals) : Prop where
  values : lib.toExternals.ReadsValues
  int64_present : ∀ json key n target, json.find key = some (.int n) →
    -(2 ^ 63) ≤ n ∧ n < 2 ^ 63 → lib.readInt64 json key target = .ok n
  int64_missing : ∀ members key target, (Json.obj members).find key = none →
    lib.readInt64 (.obj members) key target = .ok target
  double_present : ∀ json key q target, json.find key = some (.num q) →
    lib.readDouble json key target = .ok q
  double_whole : ∀ json key (n : Int) target, json.find key = some (.int n) →
    -(2 ^ 53) ≤ n ∧ n ≤ 2 ^ 53 → lib.readDouble json key target = .ok n
  bool_present : ∀ json key b target, json.find key = some (.bool b) →
    lib.readBool json key target = .ok b
  decimal_present : ∀ json key s q target, json.find key = some (.str s) → lib.stod s = some q →
    lib.readStringAsDouble json key target = .ok q

/-- The value of a field, with the type it has on the wire. -/
inductive Field where
  | int32 (n : Int)
  | int64 (n : Int)
  | text (s : String)
  | number (q : Rat)
  | decimal (q : Rat)
  | flag (b : Bool)

variable (lib : RestExternals)

def Field.Spelled : Field → Json → Prop
  | int32 n, v => v = .int n ∧ -(2 ^ 31) ≤ n ∧ n < 2 ^ 31
  | int64 n, v => v = .int n ∧ -(2 ^ 63) ≤ n ∧ n < 2 ^ 63
  | text s, v => v = .str s
  | number q, v => v = .num q ∨ ∃ n : Int, v = .int n ∧ q = n ∧ -(2 ^ 53) ≤ n ∧ n ≤ 2 ^ 53
  | decimal q, v => ∃ s, v = .str s ∧ lib.stod s = some q
  | flag b, v => v = .bool b

/-- The object has all these fields. -/
def Carries (json : Json) (fields : List (String × Field)) : Prop :=
  ∀ name field, (name, field) ∈ fields → ∃ v, json.find name = some v ∧ field.Spelled lib v

theorem carries_nil (json : Json) : Carries lib json [] :=
  fun _ _ member => absurd member List.not_mem_nil

theorem carries_cons {json : Json} {name : String} {field : Field} {rest : List (String × Field)} :
    Carries lib json ((name, field) :: rest) ↔
      (∃ v, json.find name = some v ∧ field.Spelled lib v) ∧ Carries lib json rest := by
  constructor
  · intro carries
    exact ⟨carries name field List.mem_cons_self,
      fun n f member => carries n f (List.mem_cons_of_mem _ member)⟩
  · rintro ⟨first, others⟩ n f member
    rcases List.mem_cons.mp member with same | member
    · obtain ⟨rfl, rfl⟩ := Prod.mk.inj same
      exact first
    · exact others n f member

/-- A successful answer with a list of items under a key. -/
def Page (answer : Answer) (key : String) (items : List Json) : Prop :=
  ∃ body json, answer = .http 200 body ∧ lib.parse body = .ok json ∧ json.isObject = true ∧
    json.find "code" = some (.int 200) ∧ json.find key = some (.arr items)

section Reading

variable {lib} {json : Json} {fields : List (String × Field)} (reads : Reads lib)
  (carries : Carries lib json fields) {name : String}

include reads carries

theorem Carries.readInt32 {n : Int} (member : (name, .int32 n) ∈ fields) (target : Int) :
    lib.readInt32 json name target = .ok n := by
  obtain ⟨v, found, rfl, fits⟩ := carries name _ member
  exact reads.values.int_present json name n target found fits

theorem Carries.readInt64 {n : Int} (member : (name, .int64 n) ∈ fields) (target : Int) :
    lib.readInt64 json name target = .ok n := by
  obtain ⟨v, found, rfl, fits⟩ := carries name _ member
  exact reads.int64_present json name n target found fits

theorem Carries.readText {s : String} (member : (name, .text s) ∈ fields) (target : String) :
    lib.readText json name target = .ok s := by
  obtain ⟨v, found, rfl⟩ := carries name _ member
  exact reads.values.text_present json name s target found

theorem Carries.readDouble {q : Rat} (member : (name, .number q) ∈ fields) (target : Rat) :
    lib.readDouble json name target = .ok q := by
  obtain ⟨v, found, rfl | ⟨n, rfl, rfl, fits⟩⟩ := carries name _ member
  · exact reads.double_present json name q target found
  · exact reads.double_whole json name n target found fits

theorem Carries.readDecimal {q : Rat} (member : (name, .decimal q) ∈ fields) (target : Rat) :
    lib.readStringAsDouble json name target = .ok q := by
  obtain ⟨v, found, s, rfl, spelled⟩ := carries name _ member
  exact reads.decimal_present json name s q target found spelled

theorem Carries.readBool {b : Bool} (member : (name, .flag b) ∈ fields) (target : Bool) :
    lib.readBool json name target = .ok b := by
  obtain ⟨v, found, rfl⟩ := carries name _ member
  exact reads.bool_present json name b target found

end Reading

variable {lib}

/-- A page passes the transport check and the envelope. -/
theorem Page.envelope {answer : Answer} {key : String} {items : List Json}
    (page : Page lib answer key items) :
    ∃ json, envelope lib answer = .ok json ∧ json.find key = some (.arr items) := by
  obtain ⟨body, json, rfl, parsed, object, code, found⟩ := page
  refine ⟨json, ?_, found⟩
  have fits : toInt32 200 = 200 := by decide
  simp [Rest.envelope, checkTransport, parseEnvelope, parsed, object, code, fits, Except.bind,
    Json.asInteger, bind, pure, Except.pure]

/-- A list whose items are all read is read. -/
theorem mapM_read {α β : Type} {f : α → Except String β} {items : List α} {records : List β}
    (read : List.Forall₂ (fun item record => f item = .ok record) items records) :
    items.mapM f = .ok records := by
  induction read with
  | nil => rfl
  | cons first rest ih =>
    rw [List.mapM_cons, first, ih]
    rfl

/-! ## Candles -/

def candleFields (c : Candle) : List (String × Field) :=
  [("t", .int64 c.openTime), ("o", .number c.opening), ("h", .number c.high), ("l", .number c.low),
    ("c", .number c.close), ("v", .number c.baseVolume), ("V", .number c.quoteVolume)]

theorem candle_read (reads : Reads lib) {json : Json} {c : Candle}
    (carries : Carries lib json (candleFields c)) : candleFromJson lib json = .ok c := by
  unfold candleFromJson
  rw [carries.readInt64 reads (n := c.openTime) (by simp [candleFields]),
    carries.readDouble reads (q := c.opening) (by simp [candleFields]),
    carries.readDouble reads (q := c.high) (by simp [candleFields]),
    carries.readDouble reads (q := c.low) (by simp [candleFields]),
    carries.readDouble reads (q := c.close) (by simp [candleFields]),
    carries.readDouble reads (q := c.baseVolume) (by simp [candleFields]),
    carries.readDouble reads (q := c.quoteVolume) (by simp [candleFields])]
  rfl

/-- The items of a page are these candles, in order. -/
def CandleRows (lib : RestExternals) (items : List Json) (candles : List Candle) : Prop :=
  List.Forall₂ (fun item c => Carries lib item (candleFields c)) items candles

theorem candles_read (reads : Reads lib) {answer : Answer} {items : List Json}
    {candles : List Candle} (page : Page lib answer "c" items)
    (rows : CandleRows lib items candles) : readCandles lib answer = .ok candles := by
  obtain ⟨json, opened, found⟩ := page.envelope
  have records := mapM_read (rows.imp fun item c carries => candle_read reads carries)
  simp [readCandles, opened, arrayOf, found, Json.asArray, records, bind, Except.bind]

/-! ## Instruments -/

/-- The fields of an asset outside its market configuration. -/
def assetFields (a : PerpAsset) : List (String × Field) :=
  [("symbol", .text a.symbol), ("market_id", .int32 a.marketId), ("market_type", .text a.marketType),
    ("status", .text a.status), ("supported_size_decimals", .int32 a.sizeDecimals),
    ("supported_price_decimals", .int32 a.priceDecimals), ("taker_fee", .decimal a.takerFee),
    ("maker_fee", .decimal a.makerFee), ("min_base_amount", .decimal a.minBaseAmount),
    ("min_quote_amount", .decimal a.minQuoteAmount)]

/-- A market is isolated-only in margin mode 1 alone. -/
def configFields (marginMode : Int) (forceReduceOnly : Bool) : List (String × Field) :=
  [("market_margin_mode", .int32 marginMode), ("force_reduce_only", .flag forceReduceOnly)]

/-- The asset on the wire: its own fields, and a configuration that says what it says. -/
structure AssetRow (lib : RestExternals) (json : Json) (a : PerpAsset) : Prop where
  fields : Carries lib json (assetFields a)
  config : ∃ members mode, json.find "market_config" = some (.obj members) ∧
    Carries lib (.obj members) (configFields mode a.forceReduceOnly) ∧
    a.isolatedOnly = decide (mode = 1)
  delisted : a.isDelisted = (a.status != "active")

theorem config_read (reads : Reads lib) {json : Json} {a : PerpAsset} (row : AssetRow lib json a) :
    readMarketConfig lib json = .ok (a.isolatedOnly, a.forceReduceOnly) := by
  obtain ⟨members, mode, found, carries, isolated⟩ := row.config
  unfold readMarketConfig
  rw [found, isolated]
  dsimp only
  rw [carries.readInt32 reads (n := mode) (by simp [configFields]),
    carries.readBool reads (b := a.forceReduceOnly) (by simp [configFields])]
  rfl

theorem asset_read (reads : Reads lib) {json : Json} {a : PerpAsset} (row : AssetRow lib json a) :
    assetFromJson lib json = .ok a := by
  have carries := row.fields
  unfold assetFromJson
  rw [carries.readText reads (s := a.symbol) (by simp [assetFields]),
    carries.readInt32 reads (n := a.marketId) (by simp [assetFields]),
    carries.readText reads (s := a.marketType) (by simp [assetFields]),
    carries.readText reads (s := a.status) (by simp [assetFields]),
    carries.readInt32 reads (n := a.sizeDecimals) (by simp [assetFields]),
    carries.readInt32 reads (n := a.priceDecimals) (by simp [assetFields]),
    carries.readDecimal reads (q := a.takerFee) (by simp [assetFields]),
    carries.readDecimal reads (q := a.makerFee) (by simp [assetFields]),
    carries.readDecimal reads (q := a.minBaseAmount) (by simp [assetFields]),
    carries.readDecimal reads (q := a.minQuoteAmount) (by simp [assetFields]), config_read reads row]
  simp only [bind, Except.bind, pure, Except.pure, ← row.delisted]

def AssetRows (lib : RestExternals) (items : List Json) (assets : List PerpAsset) : Prop :=
  List.Forall₂ (AssetRow lib) items assets

theorem listing_read (reads : Reads lib) {answer : Answer} {items : List Json}
    {assets : List PerpAsset} (page : Page lib answer "order_book_details" items)
    (rows : AssetRows lib items assets) : readListing lib answer = .ok assets := by
  obtain ⟨json, opened, found⟩ := page.envelope
  have records := mapM_read (rows.imp fun item a row => asset_read reads row)
  simp [readListing, opened, itemsOf, found, Json.asArray, records, bind, Except.bind]

/-! ## Accounts -/

def positionFields (p : Position) : List (String × Field) :=
  [("market_id", .int32 p.marketId), ("symbol", .text p.symbol), ("sign", .int32 p.sign),
    ("position", .decimal p.quantity), ("avg_entry_price", .decimal p.avgEntryPrice),
    ("position_value", .decimal p.positionValue), ("unrealized_pnl", .decimal p.unrealizedPnl),
    ("realized_pnl", .decimal p.realizedPnl), ("liquidation_price", .decimal p.liquidationPrice),
    ("allocated_margin", .decimal p.allocatedMargin), ("margin_mode", .int32 p.marginMode)]

def accountAssetFields (a : AccountAsset) : List (String × Field) :=
  [("symbol", .text a.symbol), ("asset_id", .int32 a.assetId), ("balance", .decimal a.balance),
    ("locked_balance", .decimal a.lockedBalance), ("margin_balance", .decimal a.marginBalance)]

/-- The fields of an account outside its two lists. -/
def accountFields (b : AccountBalance) : List (String × Field) :=
  [("account_index", .int32 b.accountIndex), ("l1_address", .text b.l1Address),
    ("available_balance", .decimal b.availableBalance), ("collateral", .decimal b.collateral),
    ("total_asset_value", .decimal b.totalAssetValue),
    ("cross_initial_margin_requirement", .decimal b.crossInitialMarginRequirement),
    ("cross_maintenance_margin_requirement", .decimal b.crossMaintenanceMarginRequirement)]

structure AccountRow (lib : RestExternals) (json : Json) (b : AccountBalance) : Prop where
  fields : Carries lib json (accountFields b)
  positions : ∃ items, json.find "positions" = some (.arr items) ∧
    List.Forall₂ (fun item p => Carries lib item (positionFields p)) items b.positions
  assets : ∃ items, json.find "assets" = some (.arr items) ∧
    List.Forall₂ (fun item a => Carries lib item (accountAssetFields a)) items b.assets

theorem position_read (reads : Reads lib) {json : Json} {p : Position}
    (carries : Carries lib json (positionFields p)) : positionFromJson lib json = .ok p := by
  unfold positionFromJson
  rw [carries.readInt32 reads (n := p.marketId) (by simp [positionFields]),
    carries.readText reads (s := p.symbol) (by simp [positionFields]),
    carries.readInt32 reads (n := p.sign) (by simp [positionFields]),
    carries.readDecimal reads (q := p.quantity) (by simp [positionFields]),
    carries.readDecimal reads (q := p.avgEntryPrice) (by simp [positionFields]),
    carries.readDecimal reads (q := p.positionValue) (by simp [positionFields]),
    carries.readDecimal reads (q := p.unrealizedPnl) (by simp [positionFields]),
    carries.readDecimal reads (q := p.realizedPnl) (by simp [positionFields]),
    carries.readDecimal reads (q := p.liquidationPrice) (by simp [positionFields]),
    carries.readDecimal reads (q := p.allocatedMargin) (by simp [positionFields]),
    carries.readInt32 reads (n := p.marginMode) (by simp [positionFields])]
  rfl

theorem accountAsset_read (reads : Reads lib) {json : Json} {a : AccountAsset}
    (carries : Carries lib json (accountAssetFields a)) : accountAssetFromJson lib json = .ok a := by
  unfold accountAssetFromJson
  rw [carries.readText reads (s := a.symbol) (by simp [accountAssetFields]),
    carries.readInt32 reads (n := a.assetId) (by simp [accountAssetFields]),
    carries.readDecimal reads (q := a.balance) (by simp [accountAssetFields]),
    carries.readDecimal reads (q := a.lockedBalance) (by simp [accountAssetFields]),
    carries.readDecimal reads (q := a.marginBalance) (by simp [accountAssetFields])]
  rfl

theorem account_read (reads : Reads lib) {json : Json} {b : AccountBalance}
    (row : AccountRow lib json b) : balanceFromJson lib json = .ok b := by
  have carries := row.fields
  obtain ⟨positionItems, positionsFound, positionRows⟩ := row.positions
  obtain ⟨assetItems, assetsFound, assetRows⟩ := row.assets
  unfold balanceFromJson itemsOf
  rw [carries.readInt32 reads (n := b.accountIndex) (by simp [accountFields]),
    carries.readText reads (s := b.l1Address) (by simp [accountFields]),
    carries.readDecimal reads (q := b.availableBalance) (by simp [accountFields]),
    carries.readDecimal reads (q := b.collateral) (by simp [accountFields]),
    carries.readDecimal reads (q := b.totalAssetValue) (by simp [accountFields]),
    carries.readDecimal reads (q := b.crossInitialMarginRequirement) (by simp [accountFields]),
    carries.readDecimal reads (q := b.crossMaintenanceMarginRequirement) (by simp [accountFields]),
    positionsFound, assetsFound]
  have positions := mapM_read (positionRows.imp fun item p => position_read reads)
  have assets := mapM_read (assetRows.imp fun item a => accountAsset_read reads)
  simp [Json.asArray, positions, assets, bind, Except.bind, pure, Except.pure]

/-- The first account of the page is returned, whichever key it was asked for by. -/
theorem getAccountBalance_read (reads : Reads lib) {server : HttpRequest → Answer}
    {authToken byKey byValue : String} {activeOnly : Bool} {item : Json} {rest : List Json}
    {b : AccountBalance}
    (page : Page lib (server (get lib kAccountPath (accountQuery byKey byValue activeOnly) authToken))
      "accounts" (item :: rest)) (row : AccountRow lib item b) :
    getAccountBalance lib server authToken byKey byValue activeOnly = .ok b := by
  obtain ⟨json, opened, found⟩ := page.envelope
  simp [getAccountBalance, opened, found, Json.asArray, account_read reads row, bind, Except.bind]

theorem AssetRows.marked {items : List Json} {assets : List PerpAsset}
    (rows : AssetRows lib items assets) : ∀ a ∈ assets, a.isDelisted = (a.status != "active") :=
  ((List.forall₂_and_left (p := fun a => a.isDelisted = (a.status != "active"))
    (R := fun a item => AssetRow lib item a) assets items).mp
      (rows.flip.imp fun _ _ row => ⟨row.delisted, row⟩)).1

/-- However the venue orders, extends and spells its records, every page of them is read as
exactly these records: an account with all it holds, the instruments, a batch of candles. -/
theorem wire_round_trip (lib : RestExternals) (reads : Reads lib) (server : HttpRequest → Answer)
    (authToken : String) :
    (∀ accountIndex activeOnly item rest b,
      Page lib (server (get lib kAccountPath (accountQuery "index" (toString accountIndex) activeOnly)
        authToken)) "accounts" (item :: rest) → AccountRow lib item b →
      getBalance lib server authToken accountIndex activeOnly = .ok b) ∧
    (∀ (cache : SymbolCache) includeDelisted answer items assets,
      Page lib answer "order_book_details" items → AssetRows lib items assets →
      cache.getPerpetualAssets lib includeDelisted answer = (.fill assets,
        .ok (if includeDelisted then assets else assets.filter fun a => a.status = "active"))) ∧
    ∀ req items candles,
      Page lib (server (get lib kCandlesPath (batchQuery req) authToken)) "c" items →
      CandleRows lib items candles →
      getCandlesBatch lib server authToken req = .ok candles := by
  refine ⟨fun accountIndex activeOnly item rest b page row => getAccountBalance_read reads page row,
    fun cache includeDelisted answer items assets page rows => ?_,
    fun req items candles page rows => candles_read reads page rows⟩
  have active : ∀ a ∈ assets, (!a.isDelisted) = decide (a.status = "active") := by
    intro a member
    rw [rows.marked a member]
    by_cases same : a.status = "active" <;> simp [same]
  simp only [SymbolCache.getPerpetualAssets, SymbolCache.loadAssets, listing_read reads page rows,
    if_true, Except.map, List.filter_congr active]

/-! ## A sample venue -/

/-- Readers that insist on the type of a field, over given pages and spellings. -/
def plainReaders (pages : List (String × Json)) (decimals : List (String × Rat)) : RestExternals where
  parse text := (pages.lookup text).elim (.error "[json.exception.parse_error.101]") .ok
  dump _ := ""
  readInt32 json key target :=
    match json.find key with
    | some (.int n) => .ok (toInt32 n)
    | some _ => .error "[json.exception.type_error.302]"
    | none => .ok target
  readText json key target :=
    match json.find key with
    | some (.str s) => .ok s
    | some _ => .error "[json.exception.type_error.302]"
    | none => .ok target
  stod s := decimals.lookup s
  nonFiniteLevel side _ := side
  llroundOverflow _ := 0
  showDouble _ := ""
  sane _ := true
  readInt64 json key target :=
    match json.find key with
    | some (.int n) => .ok (toInt64 n)
    | some _ => .error "[json.exception.type_error.302]"
    | none => .ok target
  readDouble json key target :=
    match json.find key with
    | some (.num q) => .ok q
    | some (.int n) => .ok n
    | some _ => .error "[json.exception.type_error.302]"
    | none => .ok target
  readBool json key target :=
    match json.find key with
    | some (.bool b) => .ok b
    | some _ => .error "[json.exception.type_error.302]"
    | none => .ok target
  readStringAsDouble json key target :=
    match json.find key with
    | some (.str s) => (decimals.lookup s).elim (.error "stod") .ok
    | some _ => .error "[json.exception.type_error.302]"
    | none => .ok target
  queryStringFromJson _ := ""

theorem plainReaders_reads (pages : List (String × Json)) (decimals : List (String × Rat)) :
    Reads (plainReaders pages decimals) where
  values :=
    { int_present := by
        intro json key n target found fits
        simp [plainReaders, found, toInt32_of_fits fits.1 fits.2]
      text_present := by
        intro json key s target found
        simp [plainReaders, found]
      int_missing := by
        intro members key target missing
        simp [plainReaders, missing]
      text_missing := by
        intro members key target missing
        simp [plainReaders, missing] }
  int64_present := by
    intro json key n target found fits
    have same : toInt64 n = n := Int.bmod_eq_of_le (by omega) (by omega)
    simp [plainReaders, found, same]
  int64_missing := by
    intro members key target missing
    simp [plainReaders, missing]
  double_present := by
    intro json key q target found
    simp [plainReaders, found]
  double_whole := by
    intro json key n target found fits
    simp [plainReaders, found]
  bool_present := by
    intro json key b target found
    simp [plainReaders, found]
  decimal_present := by
    intro json key s q target found spelled
    have known : decimals.lookup s = some q := spelled
    simp [plainReaders, found, known]

def sampleAsset : AccountAsset := ⟨"USDC", 3, 501 / 2, 0, 501 / 2⟩

def sampleShort : Position := ⟨2, "ETH", -1, 3 / 2, 3000, 4500, -(25 / 2), 0, 0, 0, 0⟩

def sampleAccount : AccountBalance :=
  ⟨7, "0xAbCd", 501 / 2, 501 / 2, 501 / 2, 0, 0, [sampleShort], [sampleAsset]⟩

def sampleAssetJson : Json :=
  .obj [("asset_id", .int 3), ("balance", .str "250.50"), ("locked_balance", .str "0"),
    ("margin_balance", .str "250.5"), ("symbol", .str "USDC")]

def sampleShortJson : Json :=
  .obj [("allocated_margin", .str "0"), ("avg_entry_price", .str "3000.00"),
    ("liquidation_price", .str "0"), ("margin_mode", .int 0), ("market_id", .int 2),
    ("position", .str "1.5"), ("position_value", .str "4500"), ("realized_pnl", .str "0"),
    ("sign", .int (-1)), ("symbol", .str "ETH"), ("unrealized_pnl", .str "-12.5")]

def sampleAccountJson : Json :=
  .obj [("account_index", .int 7), ("assets", .arr [sampleAssetJson]),
    ("available_balance", .str "250.5"), ("collateral", .str "250.50"),
    ("cross_initial_margin_requirement", .str "0"), ("cross_maintenance_margin_requirement", .str "0"),
    ("l1_address", .str "0xAbCd"), ("positions", .arr [sampleShortJson]),
    ("total_asset_value", .str "250.5")]

/-- An isolated-only market that is traded no more. -/
def sampleMarket : PerpAsset where
  symbol := "ETH"
  marketId := 2
  isolatedOnly := true
  forceReduceOnly := false
  marketType := "perp"
  status := "inactive"
  sizeDecimals := 4
  priceDecimals := 2
  takerFee := 0
  makerFee := 0
  minBaseAmount := 3 / 2
  minQuoteAmount := 3000
  isDelisted := true

def sampleMarketJson : Json :=
  .obj [("maker_fee", .str "0"),
    ("market_config", .obj [("force_reduce_only", .bool false), ("market_margin_mode", .int 1)]),
    ("market_id", .int 2), ("market_type", .str "perp"), ("min_base_amount", .str "1.5"),
    ("min_quote_amount", .str "3000.00"), ("status", .str "inactive"),
    ("supported_price_decimals", .int 2), ("supported_size_decimals", .int 4),
    ("symbol", .str "ETH"), ("taker_fee", .str "0")]

def sampleCandle : Candle := ⟨3600000, 3000, 6001 / 2, 2999, 3000, 3 / 2, 4500⟩

def sampleCandleJson : Json :=
  .obj [("V", .int 4500), ("c", .num 3000), ("h", .num (6001 / 2)), ("l", .int 2999),
    ("o", .int 3000), ("t", .int 3600000), ("v", .num (3 / 2))]

def sampleLib : RestExternals :=
  plainReaders
    [("account", .obj [("accounts", .arr [sampleAccountJson]), ("code", .int 200)]),
      ("candles", .obj [("c", .arr [sampleCandleJson]), ("code", .int 200)]),
      ("listing", .obj [("code", .int 200), ("order_book_details", .arr [sampleMarketJson])])]
    [("0", 0), ("250.5", 501 / 2), ("250.50", 501 / 2), ("1.5", 3 / 2), ("3000.00", 3000),
      ("4500", 4500), ("-12.5", -(25 / 2))]

def sampleServer (req : HttpRequest) : Answer :=
  .http 200 (if req.target = "/api/v1/account?" then "account" else "candles")

theorem sampleAccount_row : AccountRow sampleLib sampleAccountJson sampleAccount where
  fields := by
    simp [carries_cons, carries_nil, accountFields, sampleAccount, sampleAccountJson, Field.Spelled,
      sampleLib, List.lookup_cons, plainReaders]
  positions := ⟨[sampleShortJson], rfl, .cons (by
    simp [carries_cons, carries_nil, positionFields, sampleShort, sampleShortJson, Field.Spelled,
      sampleLib, List.lookup_cons, plainReaders]) .nil⟩
  assets := ⟨[sampleAssetJson], rfl, .cons (by
    simp [carries_cons, carries_nil, accountAssetFields, sampleAsset, sampleAssetJson, Field.Spelled,
      sampleLib, List.lookup_cons, plainReaders]) .nil⟩

theorem sampleMarket_row : AssetRow sampleLib sampleMarketJson sampleMarket where
  fields := by
    simp [carries_cons, carries_nil, assetFields, sampleMarket, sampleMarketJson, Field.Spelled,
      sampleLib, List.lookup_cons, plainReaders]
  config := ⟨_, 1, rfl, by
    simp [carries_cons, carries_nil, configFields, sampleMarket, Field.Spelled], rfl⟩
  delisted := rfl

theorem sampleCandle_carries : Carries sampleLib sampleCandleJson (candleFields sampleCandle) := by
  simp [carries_cons, carries_nil, candleFields, sampleCandle, sampleCandleJson, Field.Spelled]

theorem wire_round_trip_sample :
    getBalance sampleLib sampleServer "" 7 true = .ok sampleAccount ∧
      SymbolCache.empty.getPerpetualAssets sampleLib true (.http 200 "listing") =
        (.fill [sampleMarket], .ok [sampleMarket]) ∧
      getCandlesBatch sampleLib sampleServer "" ⟨2, "1h", 0, 7200, 3⟩ = .ok [sampleCandle] := by
  obtain ⟨accounts, listings, batches⟩ :=
    wire_round_trip sampleLib (plainReaders_reads _ _) sampleServer ""
  exact ⟨accounts 7 true sampleAccountJson [] sampleAccount ⟨"account", _, rfl, rfl, rfl, rfl, rfl⟩
      sampleAccount_row,
    listings .empty true (.http 200 "listing") [sampleMarketJson] [sampleMarket]
      ⟨"listing", _, rfl, rfl, rfl, rfl, rfl⟩ (.cons sampleMarket_row .nil),
    batches ⟨2, "1h", 0, 7200, 3⟩ [sampleCandleJson] [sampleCandle]
      ⟨"candles", _, rfl, rfl, rfl, rfl, rfl⟩ (.cons sampleCandle_carries .nil)⟩

end LighterApi.Guarantees.WireRecords
