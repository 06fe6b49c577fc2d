import InmemRuntime.PyFloat
import InmemRuntime.Lib.Dict
import InmemRuntime.Uuid

namespace InmemRuntime

/-- A UTC `datetime`, in microseconds since the epoch. -/
abbrev Time := Int

/-- `datetime.min` and `datetime.max` -/
def minTime : Time := -62135596800000000

def maxTime : Time := 253402300799999999

def maxDays : Int := 999999999

def microsPerDay : Int := 86400000000

/-- The whole part of a float, as `modf` splits it. -/
def wholePart (q : Rat) : Int := if q < 0 then q.ceil else q.floor

/-- The minutes in microseconds, as a `timedelta` rounds them: the fraction of a
minute is multiplied as a float, and added to the exact rest. -/
def minutesDelta (q : Rat) : Int :=
  roundHalfEven (wholePart q * 60000000 + binary64.nearest ((q - wholePart q) * 60000000))

theorem abs_sub_wholePart_lt (q : Rat) : |q - wholePart q| < 1 := by
  have below := Rat.floor_le q
  have above := Rat.lt_floor_add_one q
  have belowNeg := Rat.floor_le (-q)
  have aboveNeg := Rat.lt_floor_add_one (-q)
  push_cast at above aboveNeg
  rw [abs_lt, wholePart]
  split
  · rw [Rat.ceil_eq_neg_floor_neg]
    push_cast
    constructor <;> linarith
  · constructor <;> linarith

/-- The two roundings cost at most a microsecond. -/
theorem minutesDelta_near (q : Rat) : |(minutesDelta q : Rat) - q * 60000000| ≤ 1 := by
  generalize fraction : (q - wholePart q) * 60000000 = micros
  have small : |micros| < 2 ^ (26 : Int) := by
    rw [← fraction, abs_mul, abs_of_pos (by norm_num : (0 : Rat) < 60000000)]
    calc |q - wholePart q| * 60000000 < 1 * 60000000 :=
          mul_lt_mul_of_pos_right (abs_sub_wholePart_lt q) (by norm_num)
      _ < 2 ^ (26 : Int) := by norm_num
  have product : |binary64.nearest micros - micros| ≤ 1 / 2 := by
    by_cases zero : micros = 0
    · norm_num [zero]
    · have place : binary64.lastPlace micros ≤ 0 := (FloatFormat.lastPlace_le small zero).trans (by decide)
      calc |binary64.nearest micros - micros| ≤ 2 ^ binary64.lastPlace micros / 2 := FloatFormat.nearest_error micros
        _ ≤ 2 ^ (0 : Int) / 2 := by gcongr; norm_num
        _ = 1 / 2 := by norm_num
  have sum := roundHalfEven_near (wholePart q * 60000000 + binary64.nearest micros)
  rw [minutesDelta, fraction]
  rw [abs_le] at product sum ⊢
  constructor <;> linarith

/-- `timedelta(minutes=m)` in microseconds. -/
def timedeltaMinutes : PyFloat → Except PyError Int
  | .finite q =>
    let micros := minutesDelta q
    if -maxDays * microsPerDay ≤ micros ∧ micros < (maxDays + 1) * microsPerDay then .ok micros
    else .error .overflowError
  | .nan => .error (.valueError "cannot convert float NaN to integer")
  | _ => .error .overflowError

/-- `datetime + timedelta` -/
def addDelta (t : Time) (delta : Int) : Except PyError Time :=
  if minTime ≤ t + delta ∧ t + delta ≤ maxTime then .ok (t + delta) else .error .overflowError

inductive TtlStrategy where
  | delete
  | keepLatest
deriving DecidableEq

/-- What `_normalize_ttl_config` returns. -/
structure TtlConfig where
  strategy : TtlStrategy
  ttlMinutes : PyFloat
deriving DecidableEq

/-- `ThreadTTLState`: a per-thread override, a sweep marker, or both. -/
structure ThreadTtlState where
  strategy : Option TtlStrategy
  ttlMinutes : Option PyFloat
  lastSweptUpdatedAt : Option Time
deriving DecidableEq, Inhabited

def ThreadTtlState.empty : ThreadTtlState := ⟨none, none, none⟩

def TtlConfig.toState (config : TtlConfig) : ThreadTtlState :=
  ⟨some config.strategy, some config.ttlMinutes, none⟩

abbrev ThreadTtls := Dict String ThreadTtlState

/-- `str(value)`; the text of a container, which names no strategy, is abbreviated. -/
def PyVal.strategyText : PyVal → String
  | .none => "None"
  | .bool b => if b then "True" else "False"
  | .int n => toString n
  | .float q => toString q
  | .str s => s
  | .list _ => "[...]"
  | .dict _ => "{...}"

def TtlStrategy.ofText (text : String) : Except PyError TtlStrategy :=
  if text = "delete" then .ok .delete
  else if text = "keep_latest" then .ok .keepLatest
  else .error (.http 422 (s!"Invalid thread TTL strategy: {text}. " ++ "Expected 'delete' or 'keep_latest'."))

/-- `config.get("ttl", config.get("ttl_minutes", config.get("default_ttl")))` -/
def ttlValue (config : PyDict) : PyVal :=
  (config.get? "ttl").getD ((config.get? "ttl_minutes").getD ((config.get? "default_ttl").getD .none))

/-- `_normalize_ttl_config` -/
def normalizeTtlConfig (config : Option PyDict) : Except PyError (Option TtlConfig) :=
  match config with
  | none | some [] => .ok none
  | some config => do
    let strategy ← TtlStrategy.ofText (UnicodeText.lower ((config.get? "strategy").getD (.str "delete")).strategyText)
    match ttlValue config with
    | .none => .ok none
    | value =>
      match ← pyFloat? value with
      | none => .error (.http 422 "Thread TTL must be a number of minutes.")
      | some minutes =>
        if minutes.isNegative then .error (.http 422 "Thread TTL must be greater than or equal to 0.")
        else .ok (some ⟨strategy, minutes⟩)

/-- Minutes that are an integer are in force as they are. -/
theorem normalizeTtlConfig_int {n : Int} (positive : 0 ≤ n) (small : |(n : Rat)| < PyFloat.overflowBound)
    (holds : binary64.Holds n) : normalizeTtlConfig (some [("ttl", .int n)]) = .ok (some ⟨.delete, .finite n⟩) := by
  have byDefault : TtlStrategy.ofText (UnicodeText.lower (PyVal.str "delete").strategyText) = .ok .delete := by
    decide +kernel
  have notNegative : (PyFloat.finite (n : Rat)).isNegative = false :=
    decide_eq_false (not_lt.mpr (by exact_mod_cast positive))
  simp only [normalizeTtlConfig, show PyDict.get? [("ttl", PyVal.int n)] "strategy" = none from rfl, Option.getD_none,
    byDefault, show ttlValue [("ttl", .int n)] = .int n from rfl, pyFloat?_int_of_holds small holds, bind, Except.bind,
    notNegative, Bool.false_eq_true, if_false]

/-- Every TTL in force is a double, when the floats of its config are. -/
theorem normalizeTtlConfig_isDouble {config : PyDict} {accepted : TtlConfig}
    (double : ∀ q, ttlValue config = .float q → binary64.Holds q)
    (normalized : normalizeTtlConfig (some config) = .ok (some accepted)) : accepted.ttlMinutes.IsDouble := by
  cases config with
  | nil => cases normalized
  | cons item config =>
    obtain ⟨strategy, _, read⟩ := bind_ok normalized
    generalize value : ttlValue (item :: config) = ttl at read double
    split at read
    · cases read
    · obtain ⟨minutes, number, checked⟩ := bind_ok read
      cases minutes with
      | none => cases checked
      | some minutes =>
        simp only at checked
        split at checked
        · cases checked
        · cases checked
          exact pyFloat?_isDouble double number

section Store

variable (globalTtl : Option PyDict) (ttls : ThreadTtls) (threadId : Uuid)

/-- `_effective_thread_ttl`: the override, else the global policy; and the stored state. -/
def effectiveThreadTtl : Except PyError (Option TtlConfig × ThreadTtlState) :=
  let state := (ttls.get? threadId.str).getD .empty
  match state.ttlMinutes with
  | some minutes => .ok (some ⟨state.strategy.getD .delete, minutes⟩, state)
  | none => do .ok (← normalizeTtlConfig globalTtl, state)

/-- `_set_thread_ttl_override` -/
def setThreadTtlOverride (ttl : PyDict) : Except PyError ThreadTtls := do
  match ← normalizeTtlConfig (some ttl) with
  | none => .ok (ttls.erase threadId.str)
  | some config => .ok (ttls.set threadId.str config.toState)

/-- The part of `Threads.put` and `Threads.patch` for their `ttl` argument. -/
def applyTtl (ttl : Option PyDict) : Except PyError ThreadTtls :=
  match ttl with
  | none => .ok ttls
  | some ttl => setThreadTtlOverride ttls threadId ttl

end Store

end InmemRuntime
