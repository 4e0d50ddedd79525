import HermesA2A.Json
import HermesA2A.Lib.FloatText

/-!
# The settings of the rate limiter

`RateLimitConfig` is filled by one of two loaders.  `_load_rate_limit_config_from_env` reads
environment variables, `_load_rate_limit_config` a section of `config.yaml`.  Both convert what
they find with `int` and `float`, and neither looks at the numbers.

* `loadRateLimitConfigFromEnv_decimal`: whatever natural numbers the variables hold, those are
  the settings.
* `loadRateLimitConfig_any`: there are no settings that could not come from `config.yaml`.

What `load_config` returns is a parameter, as is the `repr` of a value that is not a text.
-/

namespace HermesA2A

/-- `RateLimitConfig`, with floats for floats. -/
structure RateSettings where
  enabled : Bool
  requestsPerWindow : ℤ
  windowSeconds : ℤ
  burstMultiplier : Double
  headerName : String
  cleanupIntervalSeconds : ℤ
  maxEntries : ℤ
  deriving DecidableEq

/-- `RateLimitConfig()` -/
def RateSettings.default : RateSettings where
  enabled := false
  requestsPerWindow := 100
  windowSeconds := 60
  burstMultiplier := .round 2
  headerName := "X-Forwarded-For"
  cleanupIntervalSeconds := 300
  maxEntries := 10000

/-- The default settings, switched on. -/
def RateSettings.sample : RateSettings := { RateSettings.default with enabled := true }

/-! ### Conversions -/

/-- `float(n)` -/
def floatOf (n : ℤ) : Except PyError Double :=
  match Double.round n with
  | .inf _ => .error .overflowError
  | x => .ok x

/-- `int(x)` for a float -/
def intOf : Double → Except PyError ℤ
  | .finite q _ => .ok (q.num.tdiv q.den)
  | .inf _ => .error .overflowError
  | .nan => .error .valueError

/-- `int(text)` -/
def intOfText (text : String) : Except PyError ℤ :=
  match IntText.int? text.toList with
  | some n => .ok n
  | none => .error .valueError

/-- `float(text)` -/
def floatOfText (text : String) : Except PyError Double :=
  match FloatText.float? text.toList with
  | some x => .ok x
  | none => .error .valueError

/-! ### From the environment -/

/-- `text.lower() in ("1", "true", "yes")`.  No letter but an ASCII one has one of these in
lower case. -/
def affirmative (text : String) : Bool :=
  let word := text.toList.map Char.toLower
  word = "1".toList ∨ word = "true".toList ∨ word = "yes".toList

/-- `_load_rate_limit_config_from_env` -/
def loadRateLimitConfigFromEnv (getenv : String → Option String) :
    Except PyError RateSettings := do
  let enabled := affirmative ((getenv "A2A_RATE_LIMIT_ENABLED").getD "")
  let requestsPerWindow ← intOfText ((getenv "A2A_RATE_LIMIT_REQUESTS").getD "100")
  let windowSeconds ← intOfText ((getenv "A2A_RATE_LIMIT_WINDOW").getD "60")
  let burstMultiplier ← floatOfText ((getenv "A2A_RATE_LIMIT_BURST").getD "2.0")
  let headerName := (getenv "A2A_RATE_LIMIT_HEADER").getD "X-Forwarded-For"
  let cleanupInterval ← intOfText ((getenv "A2A_RATE_LIMIT_CLEANUP").getD "300")
  let maxEntries ← intOfText ((getenv "A2A_RATE_LIMIT_MAX_ENTRIES").getD "10000")
  return ⟨enabled, requestsPerWindow, windowSeconds, burstMultiplier, headerName,
    cleanupInterval, maxEntries⟩

theorem intOfText_decimal (n : ℕ) : intOfText (toString n) = .ok (n : ℤ) := by
  have hread : IntText.int? (toString n).toList = some (n : ℤ) := by
    rw [Nat.toString_eq_ofList_toDigits, String.toList_ofList, IntText.int?_toDigits]
  rw [intOfText, hread]

theorem floatOfText_decimal (n : ℕ) : floatOfText (toString n) = .ok (.round n) := by
  have hread : FloatText.float? (toString n).toList = some (.round n) := by
    rw [Nat.toString_eq_ofList_toDigits, String.toList_ofList, FloatText.float?_toDigits]
  rw [floatOfText, hread]

/-- **The environment is taken at its word**: natural numbers in the variables are the
settings, zero and the largest among them. -/
theorem loadRateLimitConfigFromEnv_decimal {getenv : String → Option String}
    {requests window burst cleanup entries : ℕ}
    (hrequests : getenv "A2A_RATE_LIMIT_REQUESTS" = some (toString requests))
    (hwindow : getenv "A2A_RATE_LIMIT_WINDOW" = some (toString window))
    (hburst : getenv "A2A_RATE_LIMIT_BURST" = some (toString burst))
    (hcleanup : getenv "A2A_RATE_LIMIT_CLEANUP" = some (toString cleanup))
    (hentries : getenv "A2A_RATE_LIMIT_MAX_ENTRIES" = some (toString entries)) :
    loadRateLimitConfigFromEnv getenv =
      .ok ⟨affirmative ((getenv "A2A_RATE_LIMIT_ENABLED").getD ""), requests, window,
        .round burst, (getenv "A2A_RATE_LIMIT_HEADER").getD "X-Forwarded-For", cleanup,
        entries⟩ := by
  unfold loadRateLimitConfigFromEnv
  simp only [hrequests, hwindow, hburst, hcleanup, hentries, Option.getD_some,
    intOfText_decimal, floatOfText_decimal]
  rfl

/-! ### From `config.yaml` -/

/-- A value of a YAML document.  Of a list, a date and so on, only whether it is empty
matters. -/
inductive ConfigValue
  | none
  | bool (b : Bool)
  | int (n : ℤ)
  | float (x : Double)
  | str (s : String)
  | dict (items : List (ConfigValue × ConfigValue))
  | other (truthy : Bool)

namespace ConfigValue

/-- `bool(value)` -/
def truthy : ConfigValue → Bool
  | none => false
  | bool b => b
  | int n => n ≠ 0
  | float x => !x.isZero
  | str s => s ≠ ""
  | dict items => !items.isEmpty
  | other truthy => truthy

/-- `int(value)` -/
def toInt : ConfigValue → Except PyError ℤ
  | bool b => .ok b.toNat
  | int n => .ok n
  | float x => intOf x
  | str s => intOfText s
  | _ => .error .typeError

/-- `float(value)` -/
def toFloat : ConfigValue → Except PyError Double
  | bool b => floatOf b.toNat
  | int n => floatOf n
  | float x => .ok x
  | str s => floatOfText s
  | _ => .error .typeError

/-- `str(value)` -/
def toStr (repr : ConfigValue → String) : ConfigValue → String
  | str s => s
  | value => repr value

/-- `value.get(key, default)` for a dictionary -/
def get (items : List (ConfigValue × ConfigValue)) (key : String) (default : ConfigValue) :
    ConfigValue :=
  let found := items.findSome? fun item =>
    match item.1 with
    | str k => if k = key then some item.2 else Option.none
    | _ => Option.none
  found.getD default

end ConfigValue

/-- The `rate_limit` section of what `load_config` returned, if it did not raise. -/
def rateLimitSection (loaded : Option ConfigValue) : ConfigValue :=
  match loaded with
  | some (.dict items) => ConfigValue.get items "rate_limit" (.dict [])
  | _ => .dict []

/-- `_load_rate_limit_config` -/
def loadRateLimitConfig (repr : ConfigValue → String) (loaded : Option ConfigValue) :
    Except PyError RateSettings :=
  let rlSection := rateLimitSection loaded
  if ¬rlSection.truthy then .ok .default
  else
    match rlSection with
    | .dict items => do
        let enabled := (ConfigValue.get items "enabled" (.bool false)).truthy
        let requestsPerWindow ← (ConfigValue.get items "requests_per_window" (.int 100)).toInt
        let windowSeconds ← (ConfigValue.get items "window_seconds" (.int 60)).toInt
        let burstMultiplier ←
          (ConfigValue.get items "burst_multiplier" (.float (.round 2))).toFloat
        let headerName := (ConfigValue.get items "header_name" (.str "X-Forwarded-For")).toStr repr
        let cleanupInterval ←
          (ConfigValue.get items "cleanup_interval_seconds" (.int 300)).toInt
        let maxEntries ← (ConfigValue.get items "max_entries" (.int 10000)).toInt
        return ⟨enabled, requestsPerWindow, windowSeconds, burstMultiplier, headerName,
          cleanupInterval, maxEntries⟩
    | _ => .error .attributeError

/-- The section that spells the settings out. -/
def RateSettings.toSection (settings : RateSettings) : ConfigValue :=
  .dict
    [(.str "enabled", .bool settings.enabled),
      (.str "requests_per_window", .int settings.requestsPerWindow),
      (.str "window_seconds", .int settings.windowSeconds),
      (.str "burst_multiplier", .float settings.burstMultiplier),
      (.str "header_name", .str settings.headerName),
      (.str "cleanup_interval_seconds", .int settings.cleanupIntervalSeconds),
      (.str "max_entries", .int settings.maxEntries)]

/-- **Nothing is refused**: every integer and every float there is can be configured. -/
theorem loadRateLimitConfig_any (repr : ConfigValue → String) (settings : RateSettings) :
    loadRateLimitConfig repr (some (.dict [(.str "rate_limit", settings.toSection)])) =
      .ok settings := by
  rfl

end HermesA2A
