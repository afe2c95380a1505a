import Mathlib.Data.List.Sort
import MkwiiPs5.Input.NativePad
import MkwiiPs5.Rounding

/-!
# Autopilot

`pad_autopilot.cpp`: the parser of its scripts, and the cursor that plays them. The order that the
sort gives to presses of one start is left open, and how floating-point results are rounded.
-/

namespace Input

structure AutopilotPress where
  startMicros : ℕ
  endMicros : ℕ
  buttons : ℕ
  deriving DecidableEq

structure AutopilotScript where
  presses : List AutopilotPress
  error : String

namespace Autopilot

/-! ### Words -/

/-- `kButtons`. -/
def buttonBits : List (String × ℕ) :=
  [("cross", 0x4000), ("circle", 0x2000), ("square", 0x8000), ("triangle", 0x1000),
    ("options", 0x8), ("l3", 0x2), ("r3", 0x4), ("l1", 0x400), ("r1", 0x800),
    ("up", 0x10), ("down", 0x40), ("left", 0x80), ("right", 0x20)]

def kDefaultHoldMicros : ℕ := 120000
def kMaxSeconds : ℕ := 24 * 3600
def kMaxPresses : ℕ := 100000

def autopilotButton (name : List Char) : ℕ :=
  match buttonBits.find? fun b => b.1.toList = name with
  | some b => b.2
  | none => 0

def isBlank (c : Char) : Bool := c = ' ' ∨ c = '\t' ∨ c = '\r'

/-- `split`. -/
def splitWords (line : List Char) : List (List Char) := (line.splitOnP isBlank).filter (· ≠ [])

/-- `buttons`: names that are joined by a plus sign. -/
def buttons (text : List Char) : Option ℕ :=
  (text.splitOn '+').foldlM (fun out token =>
    if autopilotButton token = 0 then none else some (out ||| autopilotButton token)) 0

variable (R : Rounding)

/-- Locals of `number`. -/
structure Digits where
  whole : ℚ
  fraction : ℚ
  scale : ℚ
  dot : Bool
  digits : Bool

def readDigit (s : Digits) (c : Char) : Option Digits :=
  if c = '.' then if s.dot then none else some { s with dot := true }
  else if c < '0' ∨ '9' < c then none
  else
    let digit : ℚ := (c.toNat - '0'.toNat : ℕ)
    if s.dot then
      let scale := R.round (s.scale / 10)
      some { s with
        digits := true
        scale := scale
        fraction := R.round (s.fraction + R.round (digit * scale)) }
    else some { s with digits := true, whole := R.round (R.round (s.whole * 10) + digit) }

def number (text : List Char) : Option ℚ :=
  if text = [] ∨ 16 < text.length then none
  else do
    let s ← text.foldlM (readDigit R) ⟨0, 0, 1, false, false⟩
    if ¬ s.digits ∨ text.getLast? = some '.' ∨ text.head? = some '.' then none
    else
      let out := R.round (s.whole + s.fraction)
      if out ≤ R.round (kMaxSeconds * 1000) then some out else none

/-! ### Scripts -/

def micros (seconds : ℚ) : ℕ := Rounding.llround (R.round (seconds * 1000000))

/-- A press of some length in milliseconds. -/
def pressAt (t hold : ℚ) (bits : ℕ) : AutopilotPress :=
  let s := micros R t
  ⟨s, (s + Rounding.llround (R.round (hold * 1000))) % 2 ^ 64, bits⟩

/-- The loop of a `repeat` line, where `room` presses are left. -/
def repeatPress (stop period hold : ℚ) (bits : ℕ) :
    ℕ → ℚ → List AutopilotPress → Except String (List AutopilotPress)
  | room, t, presses =>
    if t < stop then
      match room with
      | 0 => .error "too many presses"
      | room + 1 => repeatPress stop period hold bits room (R.round (t + R.round (period / 1000)))
          (presses ++ [pressAt R t hold bits])
    else .ok presses

/-- The length of a press in milliseconds, which may be left out. -/
def holdOf (word : Option (List Char)) : Option ℚ :=
  match word with
  | none => some (R.round (kDefaultHoldMicros / 1000))
  | some word => number R word

/-- `repeat <start s> <end s> <period ms> <buttons> [hold ms]`. -/
def repeatLine (words : List (List Char)) (presses : List AutopilotPress) :
    Except String (List AutopilotPress) :=
  if words.length < 5 ∨ 6 < words.length then
    .error "expected: repeat <start s> <end s> <period ms> <buttons> [hold ms]"
  else
    match number R (words.getD 1 []), number R (words.getD 2 []), number R (words.getD 3 []),
      buttons (words.getD 4 []), holdOf R words[5]? with
    | some start, some stop, some period, some bits, some hold =>
      if stop ≤ start ∨ period ≤ 0 ∨ hold ≤ 0 ∨ period ≤ hold then
        .error "repeat needs end > start and 0 < hold < period"
      else repeatPress R stop period hold bits (kMaxPresses - presses.length) start presses
    | _, _, _, _, _ =>
      .error "expected: repeat <start s> <end s> <period ms> <buttons> [hold ms]"

/-- `<start s> <buttons> [hold ms]`. -/
def pressLine (words : List (List Char)) (presses : List AutopilotPress) :
    Except String (List AutopilotPress) :=
  if words.length < 2 ∨ 3 < words.length then .error "expected: <start s> <buttons> [hold ms]"
  else
    match number R (words.getD 0 []), buttons (words.getD 1 []), holdOf R words[2]? with
    | some start, some bits, some hold =>
      if hold ≤ 0 then .error "expected: <start s> <buttons> [hold ms]"
      else if kMaxSeconds < start then .error "start beyond 24 hours"
      else if kMaxPresses ≤ presses.length then .error "too many presses"
      else .ok (presses ++ [pressAt R start hold bits])
    | _, _, _ => .error "expected: <start s> <buttons> [hold ms]"

/-- A line up to its comment. -/
def parseLine (line : List Char) (presses : List AutopilotPress) :
    Except String (List AutopilotPress) :=
  match splitWords (line.takeWhile (· ≠ '#')) with
  | [] => .ok presses
  | word :: words =>
    if word = "repeat".toList then repeatLine R (word :: words) presses
    else pressLine R (word :: words) presses

def parseLines : ℕ → List (List Char) → List AutopilotPress → Except String (List AutopilotPress)
  | _, [], presses => .ok presses
  | lineNo, line :: rest, presses =>
    match parseLine R line presses with
    | .error why => .error ("line " ++ toString lineNo ++ ": " ++ why)
    | .ok presses => parseLines (lineNo + 1) rest presses

/-- `std::sort` by starts: presses of one start may come in any order. -/
structure PressSort where
  sort : List AutopilotPress → List AutopilotPress
  perm : ∀ presses, (sort presses).Perm presses
  sorted : ∀ presses, (sort presses).Pairwise fun p q => p.startMicros ≤ q.startMicros

/-- `parse_autopilot_script`. -/
def parseScript (S : PressSort) (text : List Char) : AutopilotScript :=
  match parseLines R 1 (text.splitOn '\n') [] with
  | .error error => ⟨[], error⟩
  | .ok presses => ⟨S.sort presses, ""⟩

end Autopilot

/-! ### The pilot -/

structure PadAutopilot where
  presses : List AutopilotPress
  origin : ℕ
  cursor : ℕ
  started : Bool

namespace PadAutopilot

def load (script : AutopilotScript) : PadAutopilot where
  presses := if script.error.isEmpty then script.presses else []
  origin := 0
  cursor := 0
  started := false

/-- The loop of `buttons_at` and of `apply`: presses that begin later are not looked at. -/
def scan (elapsed : ℕ) : List AutopilotPress → ℕ → ℕ
  | [], held => held
  | p :: rest, held =>
    if elapsed < p.startMicros then held
    else scan elapsed rest (if elapsed < p.endMicros then held ||| p.buttons else held)

def buttonsAt (pilot : PadAutopilot) (elapsed : ℕ) : ℕ := scan elapsed pilot.presses 0

/-- The cursor goes past presses that are over. -/
def skip (elapsed : ℕ) : List AutopilotPress → ℕ → ℕ
  | [], cursor => cursor
  | p :: rest, cursor => if p.endMicros ≤ elapsed then skip elapsed rest (cursor + 1) else cursor

/-- The first call starts the clock. -/
def start (pilot : PadAutopilot) (now : ℕ) : PadAutopilot :=
  if pilot.started then pilot else { pilot with origin := now, started := true, cursor := 0 }

/-- `apply`: the buttons that are held, and the sample with them. -/
def apply (pilot : PadAutopilot) (sample : PadSample) (now : ℕ) : ℕ × PadSample × PadAutopilot :=
  if pilot.presses = [] then (0, sample, pilot)
  else
    let pilot := pilot.start now
    let elapsed := if pilot.origin ≤ now then now - pilot.origin else 0
    let cursor := skip elapsed (pilot.presses.drop pilot.cursor) pilot.cursor
    let held := scan elapsed (pilot.presses.drop cursor) 0
    (held, { sample with
      connected := true
      intercepted := false
      buttons := sample.buttons ||| held }, { pilot with cursor := cursor })

/-- What some calls report. -/
def applyAll : PadAutopilot → List (PadSample × ℕ) → List ℕ
  | _, [] => []
  | pilot, (sample, now) :: calls =>
    let (held, _, pilot) := pilot.apply sample now
    held :: applyAll pilot calls

end PadAutopilot

end Input
