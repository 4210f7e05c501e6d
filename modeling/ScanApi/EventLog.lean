import Mathlib.Algebra.Order.Ring.Unbundled.Rat

/-!
What the event journal holds (`app/event_log.py`). Writing to it never fails the
caller; the technical details of an event are not modelled.
-/
namespace ScanApi.EventLog

inductive Level
  | info
  | success
  | warning
  | error
deriving DecidableEq, Repr

inductive Category
  | parser
  | schedule
  | telegram
  | proxy
  | settings
  | system
deriving DecidableEq, Repr

structure Event where
  level : Level
  category : Category
  message : String
deriving DecidableEq, Repr

/-- `count(3, "метод", "метода", "методов")` is `"3 метода"`. -/
def count (n : Nat) (one few many : String) : String :=
  let tail := n % 100
  let form :=
    if 11 ≤ tail ∧ tail ≤ 14 then many
    else if n % 10 = 1 then one
    else if 2 ≤ n % 10 ∧ n % 10 ≤ 4 then few
    else many
  toString n ++ " " ++ form

/-- `round(value)`: to the nearest integer, from the middle to the even one. -/
def round (value : Rat) : Int :=
  let low := value.floor
  let rest := value - low
  if rest < 1 / 2 then low
  else if 1 / 2 < rest then low + 1
  else if low % 2 = 0 then low else low + 1

def fmtDuration (seconds : Rat) : String :=
  let total := round seconds
  if seconds < 1 then "меньше секунды"
  else
    let hours := total / 3600
    let minutes := total % 3600 / 60
    let secs := total % 3600 % 60
    if hours ≠ 0 then
      if minutes ≠ 0 then toString hours ++ " ч " ++ toString minutes ++ " мин" else toString hours ++ " ч"
    else if minutes ≠ 0 then
      if secs ≠ 0 then toString minutes ++ " мин " ++ toString secs ++ " с" else toString minutes ++ " мин"
    else toString secs ++ " с"

end ScanApi.EventLog
