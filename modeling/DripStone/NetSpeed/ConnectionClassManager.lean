import DripStone.Library.JavaText
import DripStone.Library.Mealy

/-!
# `ConnectionClassManager`

The manager averages the bandwidth of the samples it is given and tells its
listeners when the quality of the connection has changed for a while.

The manager is stated over any `Average`; the one that it uses is the
`ExponentialGeometricAverage`, in exact arithmetic.
-/

namespace DripStone.NetSpeed

open DripStone.Library

inductive ConnectionQuality where
  | poor
  | moderate
  | good
  | excellent
  | unknown
deriving DecidableEq, Repr

/-- A moving average: without measurements, with one more, and its value. -/
structure Average (State : Type) where
  reset : State
  addMeasurement : State → Rat → State
  getAverage : State → Rat

/-! ## `ExponentialGeometricAverage` -/

/-- `Math.exp` and `Math.log` -/
structure Exponential where
  exp : Rat → Rat
  log : Rat → Rat
  exp_nonneg : ∀ value, 0 ≤ exp value

/-- The value and the number of the measurements. -/
structure ExponentialGeometricAverage where
  mValue : Rat
  mCount : JInt
deriving DecidableEq, Repr

namespace ExponentialGeometricAverage

/-- The greatest value of an `int`. -/
def intMaxValue : Int := 2 ^ 31 - 1

def mCutover (mDecayConstant : Rat) : Int :=
  if mDecayConstant = 0 then intMaxValue else castToInt ⌈1 / mDecayConstant⌉

def reset : ExponentialGeometricAverage where
  mValue := -1
  mCount := 0

variable (math : Exponential) (mDecayConstant : Rat)

/-- The value with one more measurement. -/
def addedValue (average : ExponentialGeometricAverage)
    (measurement : Rat) : Rat :=
  let keepConstant := 1 - mDecayConstant
  if mCutover mDecayConstant < average.mCount.toInt then
    math.exp (keepConstant * math.log average.mValue +
      mDecayConstant * math.log measurement)
  else if 0 < average.mCount.toInt then
    let retained := keepConstant * average.mCount.toInt /
      (average.mCount.toInt + 1)
    let newcomer := 1 - retained
    math.exp (retained * math.log average.mValue +
      newcomer * math.log measurement)
  else measurement

def addMeasurement (average : ExponentialGeometricAverage)
    (measurement : Rat) : ExponentialGeometricAverage where
  mValue := addedValue math mDecayConstant average measurement
  mCount := average.mCount + 1

/-- Whatever the average was, also with its count overflowed, it is not
negative once a measurement that is not has been added. -/
theorem mValue_addMeasurement_nonneg (average : ExponentialGeometricAverage)
    {measurement : Rat} (nonneg : 0 ≤ measurement) :
    0 ≤ (addMeasurement math mDecayConstant average measurement).mValue := by
  rw [addMeasurement, addedValue]
  split_ifs
  · exact math.exp_nonneg _
  · exact math.exp_nonneg _
  · exact nonneg

end ExponentialGeometricAverage

/-- `DEFAULT_DECAY_CONSTANT` -/
def defaultDecayConstant : Rat := 1 / 20

/-- The average that a manager uses. -/
def exponentialGeometric (math : Exponential) :
    Average ExponentialGeometricAverage where
  reset := .reset
  addMeasurement := .addMeasurement math defaultDecayConstant
  getAverage := ExponentialGeometricAverage.mValue

/-! ## The manager -/

/-- The manager; the next quality is null until the first change. -/
structure ConnectionClassManager (State Listener : Type) where
  mDownloadBandwidth : State
  mInitiateStateChange : Bool
  mCurrentBandwidthConnectionQuality : ConnectionQuality
  mNextBandwidthConnectionQuality : Option ConnectionQuality
  mListenerList : List Listener
  mSampleCounter : Nat

/-! ## Qualities -/

def defaultPoorBandwidth : Rat := 150

def defaultModerateBandwidth : Rat := 550

def defaultGoodBandwidth : Rat := 2000

/-- `Float.MAX_VALUE` -/
def floatMaxValue : Rat := (2 - 1 / 2 ^ 23) * 2 ^ 127

/-- `HYSTERESIS_TOP_MULTIPLIER` -/
def hysteresisTopMultiplier : Rat := 100 / (100 - 20)

/-- `HYSTERESIS_BOTTOM_MULTIPLIER` -/
def hysteresisBottomMultiplier : Rat := (100 - 20) / 100

def mapBandwidthQuality (average : Rat) : ConnectionQuality :=
  if average < 0 then .unknown
  else if average < defaultPoorBandwidth then .poor
  else if average < defaultModerateBandwidth then .moderate
  else if average < defaultGoodBandwidth then .good
  else .excellent

/-- The bottom and the top of the band of a quality. -/
def bandOf : ConnectionQuality → Option (Rat × Rat)
  | .poor => some (0, defaultPoorBandwidth)
  | .moderate => some (defaultPoorBandwidth, defaultModerateBandwidth)
  | .good => some (defaultModerateBandwidth, defaultGoodBandwidth)
  | .excellent => some (defaultGoodBandwidth, floatMaxValue)
  | .unknown => none

/-- The bandwidth of a sample in bits per millisecond, unless it is garbage. -/
def bandwidthOf (bytes timeInMs : Int) : Option Rat :=
  if timeInMs = 0 ∨ (bytes : Rat) / timeInMs * 8 < 10 then none
  else some ((bytes : Rat) / timeInMs * 8)

namespace ConnectionClassManager

variable {State Listener : Type} (average : Average State)

/-- A manager just constructed. -/
def new : ConnectionClassManager State Listener where
  mDownloadBandwidth := average.reset
  mInitiateStateChange := false
  mCurrentBandwidthConnectionQuality := .unknown
  mNextBandwidthConnectionQuality := none
  mListenerList := []
  mSampleCounter := 0

def getCurrentBandwidthQuality
    (manager : ConnectionClassManager State Listener) : ConnectionQuality :=
  mapBandwidthQuality (average.getAverage manager.mDownloadBandwidth)

def significantlyOutsideCurrentBand
    (manager : ConnectionClassManager State Listener) : Bool :=
  match bandOf manager.mCurrentBandwidthConnectionQuality with
  | none => true
  | some (bottomOfBand, topOfBand) =>
      let value := average.getAverage manager.mDownloadBandwidth
      if topOfBand < value then topOfBand * hysteresisTopMultiplier < value
      else value < bottomOfBand * hysteresisBottomMultiplier

/-- The change that was under way, and the number of samples, are kept. -/
def reset (manager : ConnectionClassManager State Listener) :
    ConnectionClassManager State Listener :=
  { manager with
    mDownloadBandwidth := average.reset
    mCurrentBandwidthConnectionQuality := .unknown }

/-- One listener after the other is told the current quality; a
`ConnectionChangedListener` resets the manager first. -/
def notifyListeners (manager : ConnectionClassManager State Listener) :
    List Listener → ConnectionClassManager State Listener ×
      List (Listener × ConnectionQuality)
  | [] => (manager, [])
  | listener :: rest =>
      let others := notifyListeners (manager.reset average) rest
      (others.1,
        (listener, manager.mCurrentBandwidthConnectionQuality) :: others.2)

/-! ## Calls -/

inductive Input (Listener : Type) where
  | addBandwidth (bytes timeInMs : Int)
  | reset
  | register (listener : Listener)
  | remove (listener : Listener)

/-- What a call shows: the quality with a sample that counts, and what the
listeners are told. -/
inductive Output (Listener : Type) where
  | sampled (quality : ConnectionQuality)
  | notified (told : List (Listener × ConnectionQuality))

/-- The manager once it has changed to the next quality. -/
def changed (manager : ConnectionClassManager State Listener) :
    ConnectionClassManager State Listener :=
  { manager with
    mInitiateStateChange := false
    mSampleCounter := 1
    mCurrentBandwidthConnectionQuality :=
      manager.mNextBandwidthConnectionQuality.getD .unknown }

/-- A sample while a change is under way. -/
def countSample (manager : ConnectionClassManager State Listener) :
    ConnectionClassManager State Listener × List (Output Listener) :=
  let quality := manager.getCurrentBandwidthQuality average
  let counted := { manager with mSampleCounter := manager.mSampleCounter + 1 }
  let checked :=
    if manager.mNextBandwidthConnectionQuality ≠ some quality then
      { counted with mInitiateStateChange := false, mSampleCounter := 1 }
    else counted
  if 5 ≤ checked.mSampleCounter ∧
      checked.significantlyOutsideCurrentBand average then
    let told := checked.changed.notifyListeners average checked.mListenerList
    (told.1, [.sampled quality, .notified told.2])
  else (checked, [.sampled quality])

/-- What `addBandwidth` does once the sample is measured. -/
def checkChange (manager : ConnectionClassManager State Listener) :
    ConnectionClassManager State Listener × List (Output Listener) :=
  let quality := manager.getCurrentBandwidthQuality average
  if manager.mInitiateStateChange then manager.countSample average
  else if manager.mCurrentBandwidthConnectionQuality ≠ quality then
    ({ manager with
        mInitiateStateChange := true
        mNextBandwidthConnectionQuality := some quality },
      [.sampled quality])
  else (manager, [.sampled quality])

/-- The manager with one more measurement. -/
def measure (manager : ConnectionClassManager State Listener)
    (bandwidth : Rat) : ConnectionClassManager State Listener :=
  { manager with
    mDownloadBandwidth :=
      average.addMeasurement manager.mDownloadBandwidth bandwidth }

def addBandwidth (manager : ConnectionClassManager State Listener)
    (bytes timeInMs : Int) :
    ConnectionClassManager State Listener × List (Output Listener) :=
  match bandwidthOf bytes timeInMs with
  | none => (manager, [])
  | some bandwidth => (manager.measure average bandwidth).checkChange average

def register (manager : ConnectionClassManager State Listener)
    (listener : Listener) : ConnectionClassManager State Listener :=
  { manager with mListenerList := manager.mListenerList ++ [listener] }

def remove [DecidableEq Listener]
    (manager : ConnectionClassManager State Listener)
    (listener : Listener) : ConnectionClassManager State Listener :=
  { manager with mListenerList := manager.mListenerList.erase listener }

def machine [DecidableEq Listener] :
    Mealy (ConnectionClassManager State Listener) (Input Listener)
      (Output Listener) where
  step manager
    | .addBandwidth bytes timeInMs =>
        manager.addBandwidth average bytes timeInMs
    | .reset => (manager.reset average, [])
    | .register listener => (manager.register listener, [])
    | .remove listener => (manager.remove listener, [])

theorem machine_addBandwidth [DecidableEq Listener]
    (manager : ConnectionClassManager State Listener)
    (bytes timeInMs : Int) :
    (machine average).step manager (.addBandwidth bytes timeInMs) =
      manager.addBandwidth average bytes timeInMs := rfl

end ConnectionClassManager

end DripStone.NetSpeed
