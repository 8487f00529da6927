import BasicSim.Core.Cpp
import BasicSim.Lib.RunLength

/-!
# `Core.LogUpdateHelper` — logging a value that changes (`model/core/log-update-helper.h`)

A call returns its result together with the helper it leaves behind, also when it throws. The value type
is a parameter, with the value that -1 converts to and the text that a stream prints.
-/

namespace BasicSim

open Fallible RunLength

/-- A `std::fstream` for output: the lines written so far. Opening succeeds, and what is written while it
    is not open is lost. -/
structure FileStream where
  isOpen : Bool
  lines : List Str
deriving DecidableEq

/-- Write a line. -/
def FileStream.writeLine (stream : FileStream) (line : Str) : FileStream :=
  if stream.isOpen then { stream with lines := stream.lines ++ [line] } else stream

def FileStream.close (stream : FileStream) : FileStream := { stream with isOpen := false }

structure LogUpdateHelper (V : Type) where
  logTimeValue : List (Run Int V)
  lastUpdateValue : V
  intervalAlphaValue : V
  lastIntervalCheckTime : Int
  intervalAlphaLeftTime : Int
  intervalBetaLeftTime : Int
  saveInMemory : Bool
  saveToFile : Bool
  saveFilename : Str
  fileLinePrefix : Str
  saveFileStream : FileStream
deriving DecidableEq

namespace LogUpdateHelper

variable {V : Type} [DecidableEq V] (render : V → Str)

/-- The constructor of the source. -/
def create (minusOne : V) (saveInMemory saveToFile : Bool) (saveFilename fileLinePrefix : Str) :
    Except Exc (LogUpdateHelper V) := do
  throwIf ((!saveInMemory && !saveToFile) = true) <| .invalidArgument
    "Log updater helper needs at least either to save to memory or to file."
  .ok {
    logTimeValue := []
    lastUpdateValue := minusOne
    intervalAlphaValue := minusOne
    lastIntervalCheckTime := -1
    intervalAlphaLeftTime := -1
    intervalBetaLeftTime := -1
    saveInMemory, saveToFile, saveFilename, fileLinePrefix
    saveFileStream := ⟨saveToFile, []⟩ }

/-- Push an interval to the log, if it is saved in memory. -/
def saveToLog (h : LogUpdateHelper V) (left right : Int) (value : V) : LogUpdateHelper V :=
  { h with logTimeValue :=
      if h.saveInMemory then h.logTimeValue ++ [⟨left, right, value⟩] else h.logTimeValue }

/-- A line of the file. -/
def formatLine (fileLinePrefix : Str) (time : Int) (value : V) : Str :=
  fileLinePrefix ++ toStr time ++ ",".toList ++ render value

/-- Write a line, if it is saved to a file. -/
def writeLine (h : LogUpdateHelper V) (time : Int) (value : V) : LogUpdateHelper V :=
  { h with saveFileStream :=
      if h.saveToFile then h.saveFileStream.writeLine (formatLine render h.fileLinePrefix time value)
      else h.saveFileStream }

/-- Start a new interval, once per time moment. -/
def startInterval (h : LogUpdateHelper V) (time : Int) : LogUpdateHelper V :=
  -- no first interval is yet started
  if h.intervalAlphaLeftTime = -1 then { h with intervalAlphaLeftTime := time }
  -- no second interval is yet started
  else if h.intervalBetaLeftTime = -1 then
    { h with intervalBetaLeftTime := time, intervalAlphaValue := h.lastUpdateValue }
  -- the value of interval beta has now been determined: merge, or save the alpha interval
  else if h.intervalAlphaValue = h.lastUpdateValue then { h with intervalBetaLeftTime := time }
  else
    let saved := (h.saveToLog h.intervalAlphaLeftTime h.intervalBetaLeftTime h.intervalAlphaValue).writeLine
      render h.intervalAlphaLeftTime h.intervalAlphaValue
    { saved with
      intervalAlphaLeftTime := h.intervalBetaLeftTime
      intervalAlphaValue := h.lastUpdateValue
      intervalBetaLeftTime := time }

def update (h : LogUpdateHelper V) (time : Int) (value : V) : Except Exc Unit × LogUpdateHelper V :=
  if time < 0 then (.error (.invalidArgument "Negative time is not permitted."), h)
  else if time < h.lastIntervalCheckTime then
    (.error (.invalidArgument "Cannot log a value for a time in the past."), h)
  else if time > h.lastIntervalCheckTime then
    (.ok (), { h.startInterval render time with lastIntervalCheckTime := time, lastUpdateValue := value })
  else (.ok (), { h with lastUpdateValue := value })

/-- Save the intervals that are left. -/
def saveRest (h : LogUpdateHelper V) (time : Int) : LogUpdateHelper V :=
  -- only one time moment
  if h.intervalAlphaLeftTime ≠ -1 ∧ h.intervalBetaLeftTime = -1 then
    if h.intervalAlphaLeftTime ≠ time then
      ((h.saveToLog h.intervalAlphaLeftTime time h.lastUpdateValue).writeLine render
        h.intervalAlphaLeftTime h.lastUpdateValue).writeLine render time h.lastUpdateValue
    else h
  else if h.intervalAlphaLeftTime ≠ -1 ∧ h.intervalBetaLeftTime ≠ -1 then
    -- the last two intervals can be merged
    if h.intervalAlphaValue = h.lastUpdateValue then
      ((h.saveToLog h.intervalAlphaLeftTime time h.intervalAlphaValue).writeLine render
        h.intervalAlphaLeftTime h.intervalAlphaValue).writeLine render time h.intervalAlphaValue
    else
      let saved := (h.saveToLog h.intervalAlphaLeftTime h.intervalBetaLeftTime
        h.intervalAlphaValue).writeLine render h.intervalAlphaLeftTime h.intervalAlphaValue
      if h.intervalBetaLeftTime ≠ time then
        ((saved.saveToLog h.intervalBetaLeftTime time h.lastUpdateValue).writeLine render
          h.intervalBetaLeftTime h.lastUpdateValue).writeLine render time h.lastUpdateValue
      else saved.writeLine render h.intervalBetaLeftTime h.intervalAlphaValue
  else h

/-- Close the file if it was opened. -/
def closeFile (h : LogUpdateHelper V) : LogUpdateHelper V :=
  { h with saveFileStream := if h.saveToFile then h.saveFileStream.close else h.saveFileStream }

def finalize (h : LogUpdateHelper V) (time : Int) :
    Except Exc (List (Run Int V)) × LogUpdateHelper V :=
  if time < 0 then (.error (.invalidArgument "Negative time is not permitted."), h)
  else if time < h.lastIntervalCheckTime then
    (.error (.invalidArgument "Cannot finalize at a time in the past."), h)
  else
    let closed := (h.saveRest render time).closeFile
    (.ok closed.logTimeValue, closed)

/-- Calls of `Update` one after the other, as long as none throws. -/
def updates (h : LogUpdateHelper V) : List (Int × V) → Except Exc Unit × LogUpdateHelper V
  | [] => (.ok (), h)
  | (time, value) :: rest =>
    match h.update render time value with
    | (.ok (), h') => h'.updates rest
    | (.error e, h') => (.error e, h')

end LogUpdateHelper

end BasicSim
