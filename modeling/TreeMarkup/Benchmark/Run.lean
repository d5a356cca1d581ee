import TreeMarkup.Benchmark.Document
import TreeMarkup.Command.Argument
import TreeMarkup.Double.Basic
import TreeMarkup.Double.Numeral
import TreeMarkup.Render.Basic

namespace TreeMarkup.Benchmark

structure Result where
  name : Text
  iterations : Int
  totalMs : Double

namespace Result

def averageMs? (r : Result) : Option Double :=
  if r.iterations = 0 then none else some (r.totalMs.div (Double.ofInt r.iterations))

/-- Conversions that take no time can be made without bound. -/
def opsPerSecond (averageMs : Double) : Double :=
  if averageMs.isZero then .infinite false else (Double.ofInt 1000).div averageMs

def report? (r : Result) : Option Text := do
  let average ← r.averageMs?
  return r.name ++ ":\n" ++
    "  Total: " ++ r.totalMs.fixed 2 ++ "ms for " ++ Text.ofInt r.iterations ++ " iterations\n" ++
    "  Average: " ++ average.fixed 4 ++ "ms per conversion\n" ++
    "  Ops/sec: " ++ (opsPerSecond average).fixed 0 ++ "\n\n"

end Result

structure Conversion where
  depth : Int
  markup : Text
  deriving DecidableEq, Repr

structure Stress where
  depth : Int
  made : List Conversion

namespace Stress

def start (step : Int) : Stress := ⟨step, []⟩

/-- One round converts one document. The document of a negative depth is that of depth zero. -/
def advance (step : Int) (s : Stress) : Except ConversionError Stress :=
  (convert {} (.list (deepChain s.depth.toNat))).map fun markup ↦
    ⟨s.depth + step, ⟨s.depth, markup⟩ :: s.made⟩

def runWithin (greatest step : Int) :
    Nat → Stress → Option (Except ConversionError (List Conversion))
  | 0, _ => none
  | rounds + 1, s =>
    if s.depth ≤ greatest then
      match s.advance step with
      | .ok s => runWithin greatest step rounds s
      | .error e => some (.error e)
    else some (.ok s.made.reverse)

/-- How many rounds it takes to get past the greatest depth. With a step that is not positive one
round tells whether that ever happens. -/
def rounds (greatest step : Int) : Nat :=
  if 0 < step then ((greatest - step) / step + 2).toNat + 1 else 1

/-- The conversions of a whole run, which starts at the first step; none if the run has no end. -/
def run? (greatest step : Int) : Option (Except ConversionError (List Conversion)) :=
  runWithin greatest step (rounds greatest step) (start step)

end Stress

open Command

structure Setup where
  scale : Double
  stress : Bool
  maxDepth : Int
  step : Int

def scaleSwitch : Switch := ⟨["--scale"], .float⟩

def stressSwitch : Switch := ⟨["--stress"], .none⟩

def maxDepthSwitch : Switch := ⟨["--max-depth"], .integer⟩

def stepSwitch : Switch := ⟨["--step"], .integer⟩

def Setup.ofArguments (a : Arguments) : Setup :=
  { scale := ((a.value? scaleSwitch).bind Double.read?).getD (Double.ofInt 1)
    stress := a.has stressSwitch
    maxDepth := ((a.value? maxDepthSwitch).bind Text.toInt?).getD 10000
    step := ((a.value? stepSwitch).bind Text.toInt?).getD 1000 }

def Setup.read (words : List Text) : Except Stop Setup := do
  let a ← Arguments.read [scaleSwitch, stressSwitch, maxDepthSwitch, stepSwitch] words
  if a.others.isEmpty then return .ofArguments a
  else .error (.fault (.unrecognized a.others))

abbrev Clock := Nat → Double

def Clock.elapsedMs (clock : Clock) (reading : Nat) : Double :=
  ((clock (reading + 1)).sub (clock reading)).mul (Double.ofInt 1000)

def Case.result (clock : Clock) (i : Nat) (c : Case) : Result :=
  ⟨c.name, c.iterations, clock.elapsedMs (2 * i)⟩

def underline (mark : Char) : Text := List.replicate 42 mark ++ ['\n']

def title : Text := "YAHTML to HTML Converter Performance Tests\n" ++ underline '='

def stressTitle : Text := "STRESS TEST: nested depth\n" ++ underline '-'

def depthLine (clock : Clock) (i : Nat) (depth : Int) : Text :=
  "Depth " ++ Text.ofInt depth ++ ": " ++ (clock.elapsedMs (2 * i)).fixed 2 ++ "ms\n"

def stressReport? (clock : Clock) (setup : Setup) (i : Nat) : Option Text := do
  let made ← (← Stress.run? setup.maxDepth setup.step).toOption
  return stressTitle ++ (made.mapIdx fun j c ↦ depthLine clock (i + j) c.depth).flatten

def report? (clock : Clock) (setup : Setup) : Option Text := do
  let cases ← cases? setup.scale
  let sections ← (cases.mapIdx fun i c ↦ (c.result clock i).report?).mapM id
  let stress ← if setup.stress then stressReport? clock setup cases.length else some []
  return title ++ sections.flatten ++ stress

end TreeMarkup.Benchmark
